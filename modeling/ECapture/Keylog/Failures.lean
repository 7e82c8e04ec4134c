import Mathlib.Data.List.Induction
import ECapture.Keylog.Dedup

/-!
# The key log with a failing writer

The path of TLS 1.2 calls `Flush` between `Write` and the mark: when only the flush fails, the line
has been written and its key is not marked. Otherwise what is marked is what has been written.
-/

namespace ECapture.Keylog
open Library

/-! ## What an offer can do -/

variable {hk : Hkdf} {ok : Nat → Bool} {flush : Bool} {x : Entry} {h : KeylogHandler}

/-- The flush behind the line of an unmarked entry would fail. -/
def Unflushed (ok : Nat → Bool) (flush : Bool) (x : Entry) (h : KeylogHandler) : Prop :=
  flush = true ∧ x.key ∉ h.seenKeys ∧ ok h.writer.calls = true ∧ ok (h.writer.calls + 1) = false

/-- An offer changes the journal in one of three ways. -/
theorem offer_cases (ok : Nat → Bool) (flush : Bool) (x : Entry) (h : KeylogHandler) :
    (offer ok flush x h).2.journal = h.journal ∧
        ((offer ok flush x h).1 = true → x.key ∈ h.seenKeys) ∨
      x.key ∉ h.seenKeys ∧
        (offer ok flush x h).2.journal = ⟨h.writer.lines ++ [x.line], x.key :: h.seenKeys⟩ ∨
      Unflushed ok flush x h ∧ (offer ok flush x h).1 = false ∧
        (offer ok flush x h).2.journal = ⟨h.writer.lines ++ [x.line], h.seenKeys⟩ := by
  unfold offer
  by_cases seen : x.key ∈ h.seenKeys
  · exact .inl (by simp [seen])
  · by_cases written : ok h.writer.calls
    · cases flush with
      | false => exact .inr (.inl (by simp [seen, written, KeylogHandler.journal]))
      | true =>
        by_cases flushed : ok (h.writer.calls + 1)
        · exact .inr (.inl (by simp [seen, written, flushed, KeylogHandler.journal]))
        · refine .inr (.inr ⟨⟨rfl, seen, written, by simpa using flushed⟩, ?_⟩)
          simp [seen, written, flushed, KeylogHandler.journal]
    · exact .inl (by simp [seen, written, KeylogHandler.journal])

/-- The marked keys are those of the written lines, and no pair has two lines. -/
def Consistent (j : Journal) : Prop :=
  ∃ written : List Entry, j.lines = written.map Entry.line ∧
    (∀ key, key ∈ j.seenKeys ↔ ∃ x ∈ written, x.key = key) ∧ (written.map Entry.pair).Nodup

theorem consistent_new : Consistent newKeylogHandler.journal :=
  ⟨[], rfl, by simp [newKeylogHandler, KeylogHandler.journal], by simp⟩

/-- A written and marked entry. -/
theorem Consistent.add {j : Journal} (consistent : Consistent j) (unseen : x.key ∉ j.seenKeys) :
    Consistent ⟨j.lines ++ [x.line], x.key :: j.seenKeys⟩ := by
  obtain ⟨written, lines, seen, nodup⟩ := consistent
  refine ⟨written ++ [x], by simp [lines], fun key => ?_, ?_⟩
  · simp [seen, or_comm, eq_comm]
  · have fresh : x.pair ∉ written.map Entry.pair := by
      intro mem
      obtain ⟨y, mem, same⟩ := List.mem_map.mp mem
      exact unseen ((seen x.key).mpr ⟨y, mem, Entry.key_eq_iff.mpr same⟩)
    rw [List.map_append, List.map_singleton, ← List.concat_eq_append]
    exact nodup.concat fresh

/-- A written entry that is not marked. -/
theorem not_consistent_of_unmarked {j : Journal} (unseen : x.key ∉ j.seenKeys) :
    ¬ Consistent ⟨j.lines ++ [x.line], j.seenKeys⟩ := by
  rintro ⟨written, lines, seen, -⟩
  have mem : x.line ∈ written.map Entry.line := by
    rw [← lines]
    simp
  obtain ⟨y, mem, same⟩ := List.mem_map.mp mem
  cases Entry.line_injective same
  exact unseen ((seen _).mpr ⟨_, mem, rfl⟩)

theorem Consistent.offer (consistent : Consistent h.journal) (flushed : ¬ Unflushed ok flush x h) :
    Consistent (offer ok flush x h).2.journal := by
  rcases offer_cases ok flush x h with ⟨same, -⟩ | ⟨unseen, next⟩ | ⟨failed, -, -⟩
  · rwa [same]
  · rw [next]
    exact consistent.add (j := h.journal) unseen
  · exact absurd failed flushed

/-- Without flushes a failure leaves what was written marked and the rest unmarked. -/
theorem Consistent.offers (consistent : Consistent h.journal) (xs : List Entry) :
    Consistent (offers ok false xs h).2.journal := by
  induction xs generalizing h with
  | nil => exact consistent
  | cons x xs ih =>
    have next : Consistent (Keylog.offer ok false x h).2.journal :=
      consistent.offer (by simp [Unflushed])
    rw [Keylog.offers]
    split
    case isTrue => exact ih next
    case isFalse => exact next

/-- The entries `added` have been written; only their keys may have been marked. -/
structure Adds (j j' : Journal) (added : List Entry) : Prop where
  lines : j'.lines = j.lines ++ added.map Entry.line
  kept : ∀ key ∈ j.seenKeys, key ∈ j'.seenKeys
  marked : ∀ key ∈ j'.seenKeys, key ∈ j.seenKeys ∨ ∃ x ∈ added, x.key = key

theorem Adds.refl (j : Journal) : Adds j j [] := ⟨by simp, fun _ => id, fun _ => .inl⟩

theorem Adds.trans {j j' j'' : Journal} {added added' : List Entry} (first : Adds j j' added)
    (second : Adds j' j'' added') : Adds j j'' (added ++ added') where
  lines := by rw [second.lines, first.lines, List.map_append, List.append_assoc]
  kept key mem := second.kept key (first.kept key mem)
  marked key mem := by
    rcases second.marked key mem with before | ⟨x, mem, same⟩
    · rcases first.marked key before with before | ⟨x, mem, same⟩
      · exact .inl before
      · exact .inr ⟨x, List.mem_append_left _ mem, same⟩
    · exact .inr ⟨x, List.mem_append_right _ mem, same⟩

/-- One offer writes its entry or nothing; when it does not fail, the entry is marked. -/
theorem offer_adds (ok : Nat → Bool) (flush : Bool) (x : Entry) (h : KeylogHandler) :
    ∃ added : List Entry, added.Sublist [x] ∧
      Adds h.journal (offer ok flush x h).2.journal added ∧
      ((offer ok flush x h).1 = true →
        x.key ∈ (offer ok flush x h).2.seenKeys ∧ (x.key ∉ h.seenKeys → x ∈ added)) := by
  rcases offer_cases ok flush x h with ⟨same, done⟩ | ⟨unseen, next⟩ | ⟨-, failed, next⟩
  · have seenKeys : (offer ok flush x h).2.seenKeys = h.seenKeys := congrArg Journal.seenKeys same
    refine ⟨[], List.nil_sublist _, by rw [same]; exact .refl _, fun ok => ?_⟩
    exact ⟨seenKeys ▸ done ok, fun unseen => absurd (done ok) unseen⟩
  · have seenKeys : (offer ok flush x h).2.seenKeys = x.key :: h.seenKeys :=
      congrArg Journal.seenKeys next
    refine ⟨[x], .refl _, ?_, fun _ => ⟨by rw [seenKeys]; exact List.mem_cons_self, by simp⟩⟩
    rw [next]
    refine ⟨rfl, fun key mem => List.mem_cons_of_mem _ mem, fun key mem => ?_⟩
    rcases List.mem_cons.mp mem with rfl | before
    · exact .inr ⟨x, List.mem_singleton_self x, rfl⟩
    · exact .inl before
  · refine ⟨[x], .refl _, ?_, fun ok => by simp [failed] at ok⟩
    rw [next]
    exact ⟨rfl, fun _ => id, fun _ => .inl⟩

/-- Offers write some of their entries; when none fails, all are marked, and those that were not
before have been written. -/
theorem offers_adds (ok : Nat → Bool) (flush : Bool) (xs : List Entry) (h : KeylogHandler)
    (nodup : (xs.map Entry.pair).Nodup) :
    ∃ added : List Entry, added.Sublist xs ∧
      Adds h.journal (offers ok flush xs h).2.journal added ∧
      ((offers ok flush xs h).1 = true → ∀ x ∈ xs,
        x.key ∈ (offers ok flush xs h).2.seenKeys ∧ (x.key ∉ h.seenKeys → x ∈ added)) := by
  induction xs generalizing h with
  | nil => exact ⟨[], .refl _, .refl _, by simp⟩
  | cons x xs ih =>
    obtain ⟨first, fromX, adds, done⟩ := offer_adds ok flush x h
    rw [offers]
    split
    case isFalse failed =>
      exact ⟨first, fromX.trans (by simp), adds, fun ok => absurd ok failed⟩
    case isTrue success =>
      obtain ⟨marked, written⟩ := done success
      obtain ⟨fresh, nodup⟩ := List.nodup_cons.mp nodup
      obtain ⟨rest, fromRest, adds', done'⟩ := ih (offer ok flush x h).2 nodup
      refine ⟨first ++ rest, fromX.append fromRest, adds.trans adds', fun ok y mem => ?_⟩
      rcases List.mem_cons.mp mem with rfl | later
      · exact ⟨adds'.kept _ marked, fun unseen => List.mem_append_left _ (written unseen)⟩
      · obtain ⟨marked', written'⟩ := done' ok y later
        refine ⟨marked', fun unseen => List.mem_append_right _ (written' fun seen => ?_)⟩
        rcases adds.marked _ seen with before | ⟨z, mem', same⟩
        · exact unseen before
        · obtain rfl := List.mem_singleton.mp (fromX.subset mem')
          refine fresh ?_
          rw [Entry.key_eq_iff.mp same]
          exact List.mem_map_of_mem later

/-- One `Handle` call writes some of the entries of its event; when it returns nil, all are marked
and those that were not before have been written. -/
theorem handle_adds_any (hk : Hkdf) (ok : Nat → Bool) (order : MapOrder) (event : KeylogEvent)
    (h : KeylogHandler) :
    ∃ added : List Entry, (∀ x ∈ added, x ∈ entries hk event) ∧
      Adds h.journal (handle hk ok order event h).2.journal added ∧
      ((handle hk ok order event h).1 = .ok () → ∀ x ∈ entries hk event,
        x.key ∈ (handle hk ok order event h).2.seenKeys ∧
          (x.key ∉ h.seenKeys → x ∈ added)) := by
  obtain ⟨offered, perm, eq, done⟩ := handle_offers hk ok order event h
  have nodup : (offered.map Entry.pair).Nodup :=
    (perm.map Entry.pair).nodup_iff.mpr (entries_pairs_nodup hk event)
  obtain ⟨added, some, adds, all⟩ := offers_adds ok (flushes event) offered h nodup
  rw [eq]
  exact ⟨added, fun x mem => perm.mem_iff.mp (some.subset mem), adds,
    fun ok x mem => all (done ok) x (perm.mem_iff.mpr mem)⟩

/-- One `Handle` call marks keys of entries of its event only. -/
theorem mem_seenKeys_handle {order : MapOrder} {event : KeylogEvent} {h : KeylogHandler}
    {key : Bytes} (seen : key ∈ (handle hk ok order event h).2.seenKeys) :
    key ∈ h.seenKeys ∨ ∃ x ∈ entries hk event, x.key = key := by
  obtain ⟨added, carried, adds, -⟩ := handle_adds_any hk ok order event h
  rcases adds.marked key seen with before | ⟨x, mem, same⟩
  · exact .inl before
  · exact .inr ⟨x, carried x mem, same⟩

theorem mem_seenKeys_handleAll {history : List (KeylogEvent × MapOrder)} {h : KeylogHandler}
    {key : Bytes} (seen : key ∈ (handleAll hk ok history h).seenKeys) :
    key ∈ h.seenKeys ∨ ∃ x ∈ (history.map Prod.fst).flatMap (entries hk), x.key = key := by
  induction history generalizing h with
  | nil => exact .inl seen
  | cons call rest ih =>
    obtain ⟨event, order⟩ := call
    simp only [List.map_cons, List.flatMap_cons, List.mem_append]
    rcases ih seen with before | ⟨x, mem, eq⟩
    · rcases mem_seenKeys_handle before with before | ⟨x, mem, eq⟩
      · exact .inl before
      · exact .inr ⟨x, .inl mem, eq⟩
    · exact .inr ⟨x, .inr mem, eq⟩

/-! ## Every history -/

/-- The flush behind the line of an event of TLS 1.2 would fail. -/
def FlushFails (hk : Hkdf) (ok : Nat → Bool) (event : KeylogEvent) (h : KeylogHandler) : Prop :=
  ∃ x ∈ entries hk event, Unflushed ok (flushes event) x h

/-- An event whose path flushes carries one entry at most. -/
theorem entries_of_flushes {event : KeylogEvent} (path : flushes event = true) :
    (entries hk event).length ≤ 1 := by
  cases event with
  | goTLS e => cases path
  | other => cases path
  | masterSecret e =>
    have old : e.version ≤ 0x0303 := of_decide_eq_true path
    rw [entries]
    split
    · exact Nat.zero_le 1
    · split
      · exact Nat.zero_le 1
      · exact Nat.le_refl 1

theorem Consistent.handle (consistent : Consistent h.journal) {event : KeylogEvent}
    (flushed : ¬ FlushFails hk ok event h) (order : MapOrder) :
    Consistent (handle hk ok order event h).2.journal := by
  obtain ⟨offered, perm, eq, -⟩ := handle_offers hk ok order event h
  rw [eq]
  cases path : flushes event with
  | false => exact consistent.offers offered
  | true =>
    have short : offered.length ≤ 1 := perm.length_eq ▸ entries_of_flushes path
    rcases offered with _ | ⟨x, _ | ⟨y, rest⟩⟩
    · exact consistent
    · have mem : x ∈ entries hk event := perm.mem_iff.mp (List.mem_singleton_self x)
      have next : Consistent (Keylog.offer ok true x h).2.journal :=
        consistent.offer fun failed => flushed ⟨x, mem, path ▸ failed⟩
      rw [Keylog.offers]
      split
      · exact next
      · exact next
    · simp at short

/-- A failed flush leaves a line that is not marked. -/
theorem not_consistent_of_flushFails {event : KeylogEvent} (failed : FlushFails hk ok event h)
    (order : MapOrder) : ¬ Consistent (handle hk ok order event h).2.journal := by
  obtain ⟨offered, perm, eq, -⟩ := handle_offers hk ok order event h
  obtain ⟨x, mem, path, unseen, written, flush⟩ := failed
  have short : offered.length ≤ 1 := perm.length_eq ▸ entries_of_flushes path
  obtain rfl : offered = [x] := by
    have mem := perm.mem_iff.mpr mem
    rcases offered with _ | ⟨y, _ | ⟨z, rest⟩⟩
    · cases mem
    · rw [List.mem_singleton.mp mem]
    · simp at short
  have next : (handle hk ok order event h).2.journal =
      ⟨h.writer.lines ++ [x.line], h.seenKeys⟩ := by
    rw [eq, path]
    simp [offers, offer, unseen, written, flush, KeylogHandler.journal]
  rw [next]
  exact not_consistent_of_unmarked (j := h.journal) unseen

theorem handleAll_concat (history : List (KeylogEvent × MapOrder)) (call : KeylogEvent × MapOrder)
    (h : KeylogHandler) :
    handleAll hk ok (history ++ [call]) h =
      (handle hk ok call.2 call.1 (handleAll hk ok history h)).2 := by
  induction history generalizing h with
  | nil => rfl
  | cons _ history ih => exact ih _

/-- The states that a history goes through, a new handler first. -/
def afterCalls (hk : Hkdf) (ok : Nat → Bool) (calls : List (KeylogEvent × MapOrder)) :
    KeylogHandler :=
  handleAll hk ok calls newKeylogHandler

/-- In every state of a history the marked keys are those of the written lines and no pair has two,
exactly when no flush behind the line of a TLS 1.2 event fails. When `Handle` returns nil, every
entry of its event is marked, and those that were not marked before have been written. -/
theorem marked_iff_written (hk : Hkdf) (ok : Nat → Bool)
    (history : List (KeylogEvent × MapOrder)) :
    ((∀ calls, calls <+: history → Consistent (afterCalls hk ok calls).journal) ↔
      ∀ calls event order, calls ++ [(event, order)] <+: history →
        ¬ FlushFails hk ok event (afterCalls hk ok calls)) ∧
    ∀ (h : KeylogHandler) event order, (handle hk ok order event h).1 = .ok () →
      ∀ x ∈ entries hk event, x.key ∈ (handle hk ok order event h).2.seenKeys ∧
        (x.key ∉ h.seenKeys → x.line ∈ (handle hk ok order event h).2.writer.lines) := by
  refine ⟨⟨fun consistent calls event order here failed => ?_, fun flushed calls => ?_⟩,
    fun h event order done x mem => ?_⟩
  · refine not_consistent_of_flushFails failed order ?_
    have next := consistent _ here
    rwa [afterCalls, handleAll_concat] at next
  · induction calls using List.reverseRecOn with
    | nil => exact fun _ => consistent_new
    | append_singleton calls call ih =>
      intro here
      have before := ih ((List.prefix_append calls [call]).trans here)
      rw [afterCalls, handleAll_concat]
      exact before.handle (flushed calls call.1 call.2 here) call.2
  · obtain ⟨added, -, adds, all⟩ := handle_adds_any hk ok order event h
    obtain ⟨marked, written⟩ := all done x mem
    refine ⟨marked, fun unseen => ?_⟩
    have lines : (handle hk ok order event h).2.writer.lines =
        h.writer.lines ++ added.map Entry.line := adds.lines
    rw [lines]
    exact List.mem_append_right _ (List.mem_map_of_mem (written unseen))

/-- A TLS 1.2 event. -/
def tls12Event : MasterSecretEvent :=
  let zeros := Vector.replicate 64 0
  ⟨0x0303, List.replicate 32 1, List.replicate 48 2, 0, zeros, zeros, zeros, zeros, zeros, zeros⟩

/-- The first flush fails, and the event comes again. -/
theorem line_written_twice :
    let hk : Hkdf := ⟨fun _ _ _ n => Vector.replicate n 0⟩
    let order : MapOrder := ⟨id, fun _ => .refl _⟩
    let ok : Nat → Bool := fun n => n ≠ 1
    let once := [(KeylogEvent.masterSecret tls12Event, order)]
    let line := keylogLine keyLogLabelTLS12 tls12Event.clientRandom tls12Event.masterKey
    (afterCalls hk ok once).writer.lines = [line] ∧ (afterCalls hk ok once).seenKeys = [] ∧
      (afterCalls hk ok (once ++ once)).writer.lines = [line, line] := by
  decide +kernel

end ECapture.Keylog
