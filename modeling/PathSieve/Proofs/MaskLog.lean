import Mathlib.Data.List.Dedup
import PathSieve.Proofs.History
import PathSieve.Sieve.Trace

/-!
# Rules and the log of their making

Every mask that a phrase gives is logged, with its scope and the side that it is for, and with
every list of exclusions that is added the number of masks is logged that are then held back by.
This module says that nothing is missing in the log and nothing made up: from it alone the rules
can be put together again, whatever their history, and the numbers are those of the different
masks that are in the log by then. This is `log_of_history`.

Masks are logged as they come and kept in sets, where they come once. So a set is that of the
logged masks (`ofLog`), which one addition carries on (`exclude_ofLog`), and its size is the
number of different ones.
-/

namespace PathSieve

/-- The mask that an event tells of, if it is one for the given side and scope. -/
def Event.mask? (included : Bool) (scope : Scope) : Event → Option Mask
  | maskCompiled _ mask maskScope maskIncluded =>
    if maskIncluded = included ∧ maskScope = scope then some mask else none
  | exclusionAdded _ _ _ => none
  | fileJudged _ _ => none
  | folderJudged _ _ _ => none

/-- The masks that a log tells of, for one side and one scope, in order and with repetitions. -/
def loggedMasks (log : List Event) (included : Bool) (scope : Scope) : List Mask :=
  log.filterMap (Event.mask? included scope)

/-- A log that is carried on tells of the masks of both parts. -/
@[simp] theorem loggedMasks_append (first second : List Event) (included : Bool) (scope : Scope) :
    loggedMasks (first ++ second) included scope =
      loggedMasks first included scope ++ loggedMasks second included scope :=
  List.filterMap_append

/-- The items of one scope are found again among all. -/
theorem Scoped.filterMap_labelled {α : Type} (pair : Scoped (List α)) (scope : Scope) :
    (pair.labelled.filterMap fun (label, item) => if label = scope then some item else none) =
      pair.part scope := by
  cases scope <;> simp [labelled, part, List.filterMap_append, List.filterMap_map]

/-- The log of compiling a list for one side tells of its masks for that side, and of no others. -/
theorem loggedMasks_compileEvents (platform : Platform) (text : Text) (side included : Bool)
    (scope : Scope) :
    loggedMasks (Rules.compileEvents platform text side) included scope =
      if side = included then (Phrase.compileAll platform text).part scope else [] := by
  have reported (phrase : Text) : Event.mask? included scope ∘
      (fun item : Scope × Mask => .maskCompiled phrase item.2 item.1 side) =
        fun item => if side = included ∧ item.1 = scope then some item.2 else none := rfl
  simp only [loggedMasks, Rules.compileEvents, List.filterMap_flatMap, List.filterMap_map, reported]
  by_cases same : side = included
  · simp only [same, true_and, if_true, Phrase.compileAll, Scoped.part_flatMap]
    congr 1
    funext phrase
    exact Scoped.filterMap_labelled (Phrase.compile platform phrase) scope
  · simp [same]

namespace OrderedSet

variable {α : Type} [Ord α] [Std.TransOrd α] [Std.LawfulEqOrd α]

/-- The set of a list has as many elements as there are different items in the list. -/
theorem size_ofList [DecidableEq α] (items : List α) : (ofList items).size = items.dedup.length := by
  have same : (ofList items).toList.Perm items.dedup :=
    (List.perm_ext_iff_of_nodup (nodup_of_ascending (ofList items).ascending)
      (List.nodup_dedup items)).mpr fun item => by rw [mem_toList, mem_ofList, List.mem_dedup]
  exact same.length_eq

/-- The set of two lists together is that of the first with the items of the second. -/
theorem ofList_append (first second : List α) :
    ofList (first ++ second) = (ofList first).insertMany second :=
  List.foldl_append

end OrderedSet

namespace Rules

/-- Compiling a list for one side logs masks for that side and nothing else. -/
theorem of_mem_compileEvents {platform : Platform} {text : Text} {included : Bool} {event : Event}
    (member : event ∈ compileEvents platform text included) :
    ∃ phrase mask scope, event = .maskCompiled phrase mask scope included := by
  obtain ⟨phrase, -, among⟩ := List.mem_flatMap.mp member
  obtain ⟨⟨scope, mask⟩, -, rfl⟩ := List.mem_map.mp among
  exact ⟨phrase, mask, scope, rfl⟩

/-- The rules that a log tells of. -/
def ofLog (platform : Platform) (log : List Event) : Rules where
  included := ⟨.ofList (loggedMasks log true .entry), .ofList (loggedMasks log true .folder)⟩
  excluded := ⟨.ofList (loggedMasks log false .entry), .ofList (loggedMasks log false .folder)⟩
  platform := platform

/-- New rules are those that the log of their making tells of. -/
theorem compile_eq_ofLog (platform : Platform) (included excluded : Text) :
    compile platform included excluded =
      ofLog platform (compileTraced platform included excluded).events := by
  simp only [ofLog, compileTraced, loggedMasks_append, loggedMasks_compileEvents, if_true,
    List.append_nil, List.nil_append, Bool.false_eq_true, Bool.true_eq_false, if_false]
  rfl

/-- To add to rules that a log tells of is to carry the log on. -/
theorem exclude_ofLog (platform : Platform) (log : List Event) (text : Text) :
    (ofLog platform log).exclude text =
      ofLog platform (log ++ compileEvents platform text false) := by
  simp only [ofLog, exclude, Selection.insertText, loggedMasks_append, loggedMasks_compileEvents,
    if_true, List.append_nil, Bool.false_eq_true, if_false, OrderedSet.ofList_append]
  rfl

/-- That an addition is complete tells of no masks. -/
theorem ofLog_append_exclusionAdded (platform : Platform) (log : List Event) (text : Text)
    (entryCount folderCount : Nat) :
    ofLog platform (log ++ [.exclusionAdded text entryCount folderCount]) = ofLog platform log := by
  have unlogged (included : Bool) (scope : Scope) :
      loggedMasks [.exclusionAdded text entryCount folderCount] included scope = [] := rfl
  simp only [ofLog, loggedMasks_append, unlogged, List.append_nil]

/-- An addition to rules that a log tells of logs the numbers of different masks by then. -/
theorem events_excludeTraced_ofLog (platform : Platform) (log : List Event) (text : Text) :
    ((ofLog platform log).excludeTraced text).events =
      compileEvents platform text false ++
        [.exclusionAdded text
          (loggedMasks (log ++ compileEvents platform text false) false .entry).dedup.length
          (loggedMasks (log ++ compileEvents platform text false) false .folder).dedup.length] := by
  rw [excludeTraced, exclude_ofLog]
  simp only [ofLog, OrderedSet.size_ofList]

end Rules

namespace History

/-- The rules that came about on a platform, with the events of their making. -/
def rulesTraced (history : History) (platform : Platform) : Traced Rules :=
  history.additions.foldl (fun traced text => traced >>= (·.excludeTraced text))
    (Rules.compileTraced platform history.included history.excluded)

/-- What comes about when one more list is added. -/
def adding (history : History) (text : Text) : History :=
  { history with additions := history.additions ++ [text] }

/-- The last addition is made to the rules that came about before. -/
theorem rulesTraced_adding (history : History) (text : Text) (platform : Platform) :
    (history.adding text).rulesTraced platform =
      history.rulesTraced platform >>= (·.excludeTraced text) :=
  List.foldl_append

/-- The plain rules are those before the last addition with what it adds. -/
theorem rules_adding (history : History) (text : Text) (platform : Platform) :
    (history.adding text).rules platform = (history.rules platform).exclude text :=
  List.foldl_append

/-- Every history is a first pair of lists or goes on from another by one addition. -/
theorem induction_adding {holds : History → Prop}
    (made : ∀ included excluded, holds ⟨included, excluded, []⟩)
    (added : ∀ history text, holds history → holds (history.adding text)) (history : History) :
    holds history := by
  obtain ⟨included, excluded, additions⟩ := history
  induction additions using List.reverseRecOn with
  | nil => exact made included excluded
  | append_singleton additions text inductionHypothesis =>
    exact added ⟨included, excluded, additions⟩ text inductionHypothesis

/-- The traced way gives the plain result. -/
@[simp] theorem value_rulesTraced (history : History) (platform : Platform) :
    (history.rulesTraced platform).value = history.rules platform := by
  induction history using induction_adding with
  | made included excluded => rfl
  | added history text inductionHypothesis =>
    rw [rulesTraced_adding, rules_adding, Traced.value_bind, inductionHypothesis]
    rfl

/-- Rules are those that the log of their making tells of, whatever their history. -/
theorem rules_eq_ofLog (history : History) (platform : Platform) :
    history.rules platform = .ofLog platform (history.rulesTraced platform).events := by
  induction history using induction_adding with
  | made included excluded => exact Rules.compile_eq_ofLog platform included excluded
  | added history text inductionHypothesis =>
    rw [rules_adding, rulesTraced_adding, Traced.events_bind, value_rulesTraced]
    generalize (history.rulesTraced platform).events = log at inductionHypothesis ⊢
    rw [inductionHypothesis, Rules.exclude_ofLog, Rules.events_excludeTraced_ofLog,
      ← List.append_assoc, Rules.ofLog_append_exclusionAdded]

/-- What an addition logs follows on what was logged before. -/
theorem events_adding (history : History) (text : Text) (platform : Platform) :
    ((history.adding text).rulesTraced platform).events =
      (history.rulesTraced platform).events ++
        ((history.rules platform).excludeTraced text).events := by
  rw [rulesTraced_adding, Traced.events_bind, value_rulesTraced]

/-- The log of the making of rules tells which rules came about. Whatever their history, the four
    sets of masks are those of the masks that were logged for either side and scope. An addition
    logs its own masks and then, once, its text with the numbers of different masks of either
    scope that were logged by then for holding back, those of the first list included. -/
theorem log_of_history (history : History) (platform : Platform) :
    let log := (history.rulesTraced platform).events
    (history.rulesTraced platform).value = history.rules platform ∧
      history.rules platform = .ofLog platform log ∧
      ∀ text,
        let compiled := Rules.compileEvents platform text false
        (∀ event ∈ compiled, ∃ phrase mask scope, event = .maskCompiled phrase mask scope false) ∧
          ((history.adding text).rulesTraced platform).events =
            log ++ compiled ++
              [.exclusionAdded text (loggedMasks (log ++ compiled) false .entry).dedup.length
                (loggedMasks (log ++ compiled) false .folder).dedup.length] := by
  intro log
  refine ⟨value_rulesTraced history platform, rules_eq_ofLog history platform, fun text => ⟨?_, ?_⟩⟩
  · intro event member
    exact Rules.of_mem_compileEvents member
  · rw [events_adding, rules_eq_ofLog, Rules.events_excludeTraced_ofLog, List.append_assoc]

/-- A mask that is held back already is logged once more but not counted again. -/
theorem log_of_repeated_exclusion :
    let history := History.mk "*.rs".toList "*.tmp".toList []
    let text := "*/gen/;*.tmp".toList
    let log := (history.rulesTraced .posix).events
    let compiled := Rules.compileEvents .posix text false
    history.rules .posix = .ofLog .posix log ∧
      (∃ event ∈ compiled, ∃ phrase mask scope, event = .maskCompiled phrase mask scope false) ∧
      loggedMasks (log ++ compiled) false .entry = ["*.tmp".toList, "*.tmp".toList] ∧
      ((history.adding text).rulesTraced .posix).events =
        log ++ compiled ++ [.exclusionAdded text 1 2] := by
  intro history text log compiled
  obtain ⟨-, rules, added⟩ := log_of_history history .posix
  obtain ⟨masks, events⟩ := added text
  have repeated : .maskCompiled "*.tmp".toList "*.tmp".toList .entry false ∈ compiled := by
    decide +kernel
  have entries : loggedMasks (log ++ compiled) false .entry =
      ["*.tmp".toList, "*.tmp".toList] := by decide +kernel
  have folders : loggedMasks (log ++ compiled) false .folder =
      ["*/gen".toList, "gen".toList] := by decide +kernel
  refine ⟨rules, ⟨_, repeated, masks _ repeated⟩, entries, events.trans ?_⟩
  rw [entries, folders]
  rfl

end History

end PathSieve
