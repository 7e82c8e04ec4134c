import ECapture.Events.Bash
import ECapture.Library.Since

/-!
# The lines of a shell

`handleEvent` of the bash probe over any interleaving of the events of any shells. A completed
command is given the lines that its shell has read since its last completion; a shell is a process,
a user and a name, as its key in `lineMap` says.
-/

namespace ECapture.Events.Bash
open Library

/-! ## Shells and their events -/

structure Shell where
  pid : UInt32
  uid : UInt32
  comm : Bytes
  deriving DecidableEq

namespace Event

def shell (e : Event) : Shell := ⟨e.pid, e.uid, commToString e.comm.toList⟩

/-- Its key in `lineMap`. -/
def key (e : Event) : Bytes := uuid e.pid e.uid e.comm

theorem key_inj {e e' : Event} : e.key = e'.key ↔ e.shell = e'.shell := by
  rw [key, key, uuid_inj, shell, shell, Shell.mk.injEq]

/-- The shell has read a line. -/
def reads (sh : Shell) (e : Event) : Bool := e.bashType = bashEventTypeReadline ∧ e.shell = sh

/-- A command of the shell is completed. -/
def completes (sh : Shell) (e : Event) : Bool :=
  (e.bashType = bashEventTypeRetval ∨ e.bashType = bashEventTypeExitOrExec) ∧ e.shell = sh

/-- The line that has been read. -/
def text (e : Event) : Bytes := commToString e.line.toList

/-- The return value is the one that is not reported. -/
def Skipped (errNo : Int64) (e : Event) : Prop :=
  e.bashType = bashEventTypeRetval ∧ e.returnValue = errNo.toUInt64.toUInt32

instance (errNo : Int64) (e : Event) : Decidable (e.Skipped errNo) :=
  inferInstanceAs (Decidable (_ ∧ _))

end Event

/-- The events one after another: what becomes of each, and the map at the end. -/
def handleAll (errNo : Int64) : List Event → LineMap → List Event × LineMap
  | [], lineMap => ([], lineMap)
  | event :: rest, lineMap =>
    let (event, lineMap) := handleEvent errNo event lineMap
    let (rest, lineMap) := handleAll errNo rest lineMap
    (event :: rest, lineMap)

def noLines : LineMap := fun _ => []

/-- The positions of the lines that the shell has read since its last completion before `n`. -/
def readSince (events : List Event) (sh : Shell) (n : ℕ) : List ℕ :=
  since (Event.reads sh) (Event.completes sh) events n

def linesSince (events : List Event) (sh : Shell) (n : ℕ) : List Bytes :=
  gathered (Event.reads sh) (Event.completes sh) Event.text events n

/-- Lines without the empty ones in front, with a newline between each two. -/
def joined (lines : List Bytes) : Bytes := [10].intercalate (lines.dropWhile (· = []))

/-! ## Joining -/

theorem joined_concat (lines : List Bytes) (line : Bytes) :
    joined (lines ++ [line]) = joinLine (joined lines) line := by
  have front := List.head?_dropWhile_not (fun l : Bytes => decide (l = [])) lines
  rw [joined, joined, List.dropWhile_append]
  cases kept : lines.dropWhile (· = []) with
  | nil =>
    rw [List.isEmpty_nil, if_pos rfl, List.intercalate_nil, joinLine, if_neg (by simp)]
    by_cases empty : line = [] <;> simp [empty]
  | cons first rest =>
    rw [kept] at front
    have first_ne : first ≠ [] := by simpa using front
    have joined_ne : [10].intercalate (first :: rest) ≠ [] := by
      cases rest with
      | nil => simpa using first_ne
      | cons second rest => simp [List.intercalate_cons_cons]
    rw [List.isEmpty_cons, if_neg (by simp), intercalate_concat _ (List.cons_ne_nil _ _), joinLine,
      if_pos joined_ne]
    rfl

/-! ## One event -/

variable {errNo : Int64} {e : Event} {lineMap : LineMap}

/-- Whether an event completes a command is a question of its kind. -/
theorem completes_own : e.completes e.shell = true ↔
    e.bashType = bashEventTypeRetval ∨ e.bashType = bashEventTypeExitOrExec := by
  simp [Event.completes]

theorem handleEvent_reads {sh : Shell} (reads : e.reads sh = true) :
    handleEvent errNo e lineMap =
      (e, Function.update lineMap e.key (joinLine (lineMap e.key) e.text)) := by
  have readline : e.bashType = bashEventTypeReadline := by
    simp only [Event.reads, decide_eq_true_eq] at reads
    exact reads.1
  simp only [handleEvent, if_pos readline]
  rfl

theorem handleEvent_completes {sh : Shell} (completes : e.completes sh = true) :
    handleEvent errNo e lineMap =
      (if lineMap e.key = [] ∨ e.Skipped errNo then e else { e with allLines := lineMap e.key },
        Function.update lineMap e.key []) := by
  simp only [Event.completes, decide_eq_true_eq] at completes
  rw [handleEvent, ← Event.key]
  rcases completes.1 with retval | exit
  · have other : e.bashType ≠ bashEventTypeReadline := by rw [retval]; decide
    have skipped : e.Skipped errNo ↔ e.returnValue = errNo.toUInt64.toUInt32 :=
      and_iff_right retval
    rw [if_neg other, if_pos retval]
    simp only [skipped]
    split <;> rfl
  · have other : e.bashType ≠ bashEventTypeReadline := by rw [exit]; decide
    have other' : e.bashType ≠ bashEventTypeRetval := by rw [exit]; decide
    have reported : ¬ e.Skipped errNo := fun skipped => other' skipped.1
    rw [if_neg other, if_neg other', if_pos exit]
    simp only [reported, or_false]
    split <;> rfl

theorem handleEvent_other (notReads : e.reads e.shell = false)
    (notCompletes : e.completes e.shell = false) :
    handleEvent errNo e lineMap = (e, lineMap) := by
  have kinds : e.bashType ≠ bashEventTypeReadline ∧ e.bashType ≠ bashEventTypeRetval ∧
      e.bashType ≠ bashEventTypeExitOrExec := by
    simpa [Event.reads, Event.completes, not_or] using And.intro notReads notCompletes
  simp only [handleEvent, if_neg kinds.1, if_neg kinds.2.1, if_neg kinds.2.2]

/-- The lines of other shells stay. -/
theorem handleEvent_of_ne {k : Bytes} (other : k ≠ e.key) :
    (handleEvent errNo e lineMap).2 k = lineMap k := by
  have kept : ∀ v, Function.update lineMap e.key v k = lineMap k :=
    fun v => Function.update_of_ne other v lineMap
  rw [handleEvent, ← Event.key]
  dsimp only
  split_ifs <;> first | rfl | exact kept _

theorem completes_of_reads {sh : Shell} (reads : e.reads sh = true) : e.completes sh = false := by
  simp only [Event.reads, decide_eq_true_eq] at reads
  simp [Event.completes, reads.1, bashEventTypeReadline, bashEventTypeRetval,
    bashEventTypeExitOrExec]

theorem handleEvent_of_not_completes (none : e.completes e.shell = false) :
    (handleEvent errNo e lineMap).1 = e := by
  cases reads : e.reads e.shell with
  | true => rw [handleEvent_reads reads]
  | false => rw [handleEvent_other reads none]

/-! ## All events -/

theorem handleAll_append (as bs : List Event) (lineMap : LineMap) :
    handleAll errNo (as ++ bs) lineMap =
      ((handleAll errNo as lineMap).1 ++ (handleAll errNo bs (handleAll errNo as lineMap).2).1,
        (handleAll errNo bs (handleAll errNo as lineMap).2).2) := by
  induction as generalizing lineMap with
  | nil => rfl
  | cons a as ih => simp only [List.cons_append, handleAll, ih]

theorem length_handleAll (events : List Event) (lineMap : LineMap) :
    (handleAll errNo events lineMap).1.length = events.length := by
  induction events generalizing lineMap with
  | nil => rfl
  | cons e events ih => simp only [handleAll, List.length_cons, ih]

variable {events : List Event} {n : ℕ}

/-- The map before the event with this number. -/
def before (errNo : Int64) (events : List Event) (n : ℕ) : LineMap :=
  (handleAll errNo (events.take n) noLines).2

theorem before_succ (here : events[n]? = some e) :
    before errNo events (n + 1) = (handleEvent errNo e (before errNo events n)).2 := by
  rw [before, List.take_add_one, here, Option.toList_some, handleAll_append]
  rfl

theorem getElem?_handleAll (here : events[n]? = some e) :
    (handleAll errNo events noLines).1[n]? =
      some (handleEvent errNo e (before errNo events n)).1 := by
  obtain ⟨bound, rfl⟩ := List.getElem?_eq_some_iff.mp here
  have cut : events = events.take n ++ events[n] :: events.drop (n + 1) := by
    rw [List.getElem_cons_drop, List.take_append_drop]
  have len : (handleAll errNo (events.take n) noLines).1.length = n := by
    rw [length_handleAll, List.length_take, Nat.min_eq_left (Nat.le_of_lt bound)]
  conv_lhs => rw [cut, handleAll_append, handleAll]
  rw [List.getElem?_append_right (by omega), len, Nat.sub_self]
  rfl

/-- The map has the lines of every shell since its last completion. -/
theorem before_key (errNo : Int64) (events : List Event) (sh : Event) {n : ℕ}
    (bound : n ≤ events.length) :
    before errNo events n sh.key = joined (linesSince events sh.shell n) := by
  induction n with
  | zero => rfl
  | succ n ih =>
    have lines := ih (by omega)
    have here : events[n]? = some events[n] := List.getElem?_eq_getElem (by omega)
    rw [before_succ here]
    by_cases own : events[n].shell = sh.shell
    · have key : sh.key = events[n].key := (Event.key_inj.mpr own).symm
      cases reads : events[n].reads sh.shell with
      | true =>
        rw [handleEvent_reads reads, linesSince,
          gathered_gather here (completes_of_reads reads) reads, joined_concat, ← linesSince,
          ← lines, ← key]
        exact Function.update_self _ _ _
      | false =>
        cases completes : events[n].completes sh.shell with
        | true =>
          rw [handleEvent_completes completes, linesSince, gathered_reset here completes reads,
            ← key]
          exact Function.update_self _ _ _
        | false =>
          rw [handleEvent_other (by rwa [own]) (by rwa [own]), linesSince,
            gathered_other here completes reads, ← linesSince]
          exact lines
    · have other : sh.key ≠ events[n].key := fun same => own (Event.key_inj.mp same.symm)
      have reads : events[n].reads sh.shell = false := by simp [Event.reads, own]
      have completes : events[n].completes sh.shell = false := by simp [Event.completes, own]
      rw [handleEvent_of_ne other, lines, linesSince, linesSince,
        gathered_other here completes reads]

theorem reads_of_mem {sh : Shell} {j : ℕ} (mem : j ∈ readSince events sh n) :
    ∃ e, events[j]? = some e ∧ e.bashType = bashEventTypeReadline ∧ e.shell = sh := by
  obtain ⟨-, read, -⟩ := mem_since.mp mem
  obtain ⟨e, found, reads⟩ := (Option.any_eq_true _ _).mp read
  exact ⟨e, found, by simpa [Event.reads] using reads⟩

/-- What completes a command of a shell is given the lines that the shell has read since its last
completion, unless there are none or its return value is not reported; every other event stays as it
is. The lines are lines of this shell; after the completion they are gone, and no other completion
is given any of them. -/
theorem lines_of_shells (errNo : Int64) (events : List Event) {i : ℕ} {e : Event}
    (here : events[i]? = some e) :
    (handleAll errNo events noLines).1[i]? = some
        (if e.completes e.shell = true ∧ joined (linesSince events e.shell i) ≠ [] ∧
            ¬ e.Skipped errNo then
          { e with allLines := joined (linesSince events e.shell i) }
        else e) ∧
      (∀ j ∈ readSince events e.shell i, ∃ e', events[j]? = some e' ∧
        e'.bashType = bashEventTypeReadline ∧ e'.shell = e.shell) ∧
      (e.completes e.shell = true →
        (handleAll errNo (events.take (i + 1)) noLines).2 e.key = [] ∧
        ∀ i' e', events[i']? = some e' → e'.completes e'.shell = true →
          ∀ j ∈ readSince events e.shell i, j ∈ readSince events e'.shell i' → i = i') := by
  have bound : i < events.length := (List.getElem?_eq_some_iff.mp here).1
  have text := before_key errNo events e (Nat.le_of_lt bound)
  refine ⟨?_, fun j mem => reads_of_mem mem, fun completes => ⟨?_, ?_⟩⟩
  · rw [getElem?_handleAll here]
    cases completes : e.completes e.shell with
    | true =>
      have reported : (true = true ∧ joined (linesSince events e.shell i) ≠ [] ∧
          ¬ e.Skipped errNo) ↔
          ¬ (joined (linesSince events e.shell i) = [] ∨ e.Skipped errNo) := by
        rw [not_or, and_iff_right rfl]
      rw [handleEvent_completes completes, text, if_congr reported rfl rfl, ite_not]
    | false => rw [handleEvent_of_not_completes completes, if_neg (by simp)]
  · rw [← before, before_succ here, handleEvent_completes completes]
    exact Function.update_self _ _ _
  · intro i' e' here' completes' j mem mem'
    obtain ⟨read, found, -, own⟩ := reads_of_mem mem
    obtain ⟨read', found', -, own'⟩ := reads_of_mem mem'
    obtain rfl : read = read' := Option.some.inj (found.symm.trans found')
    have shell : e'.shell = e.shell := own'.symm.trans own
    rw [shell] at completes' mem'
    exact since_disjoint (by rwa [here]) (by rwa [here']) mem mem'

/-! ## Two shells -/

/-- An event of the shell of this process. -/
def shellEvent (type pid : UInt32) (line : Bytes) : Event :=
  { bashType := type, pid, uid := 0, line := .ofFn fun i => line.getD i 0, returnValue := 0,
    comm := .ofFn fun i => (str "bash").getD i 0, allLines := [] }

/-- Two shells take turns; the first one starts with an empty line. -/
def turns : List Event :=
  [shellEvent 0 1 [], shellEvent 0 1 (str "ls"), shellEvent 0 2 (str "id"),
    shellEvent 0 1 (str "w"), shellEvent 1 1 [], shellEvent 2 2 []]

/-- The first completion has the lines of its own shell. -/
theorem lines_of_shells_turns :
    (handleAll 128 turns noLines).1[4]? =
        some { shellEvent 1 1 [] with allLines := str "ls\nw" } ∧
      (handleAll 128 (turns.take (4 + 1)) noLines).2 (shellEvent 1 1 []).key = [] := by
  obtain ⟨event, -, cleared⟩ := lines_of_shells 128 turns (i := 4) (e := shellEvent 1 1 []) rfl
  have lines : linesSince turns (shellEvent 1 1 []).shell 4 = [[], str "ls", str "w"] := by
    decide +kernel
  have text : joined [[], str "ls", str "w"] = str "ls\nw" := by decide +kernel
  have completes := (completes_own (e := shellEvent 1 1 [])).mpr (.inl rfl)
  have reported : (shellEvent 1 1 []).completes (shellEvent 1 1 []).shell = true ∧
      str "ls\nw" ≠ [] ∧ ¬ (shellEvent 1 1 []).Skipped 128 :=
    ⟨completes, by decide +kernel, by decide +kernel⟩
  rw [lines, text, if_pos reported] at event
  exact ⟨event, (cleared completes).1⟩

end ECapture.Events.Bash
