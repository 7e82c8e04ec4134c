import ECapture.Keylog.Offers

/-!
# One line for each label and client random

The abstract side: an event carries a list of `Entry` values, those the handler accepts,
and a key log holds for each label and client random the first entry that was carried.
The concrete side writes lines and remembers string keys. They agree because a dedup key
and a line determine what they were built from (`dedupKey_inj`, `keylogLine_inj`), and
because every path of `Handle` is a sequence of the same operation, `Journal.offer`, as long
as no call fails.
-/

namespace ECapture.Keylog
open Library

/-- The first entry for a label and client random in a history of events. -/
def firstEntry (hk : Hkdf) (events : List KeylogEvent) (pair : Bytes × Bytes) : Option Entry :=
  (events.flatMap (entries hk)).find? (fun x => decide (x.pair = pair))

/-! ## The journal -/

/-- The part of the handler that matters for deduplication. -/
structure Journal where
  lines : List Bytes
  seenKeys : List Bytes

def KeylogHandler.journal (h : KeylogHandler) : Journal := ⟨h.writer.lines, h.seenKeys⟩

/-- Write an entry unless its key has been seen. -/
def Journal.offer (j : Journal) (x : Entry) : Journal :=
  if x.key ∈ j.seenKeys then j else ⟨j.lines ++ [x.line], x.key :: j.seenKeys⟩

/-- The writer that never fails. -/
def always : Nat → Bool := fun _ => true

@[simp] theorem write_always (h : KeylogHandler) (line : Bytes) :
    h.write always line = (true, { h with writer := ⟨h.writer.lines ++ [line],
      h.writer.calls + 1⟩ }) := rfl

theorem offer_always (flush : Bool) (x : Entry) (h : KeylogHandler) :
    (offer always flush x h).1 = true ∧
      (offer always flush x h).2.journal = h.journal.offer x := by
  unfold offer
  by_cases seen : x.key ∈ h.seenKeys
  · simp [seen, Journal.offer, KeylogHandler.journal]
  · cases flush with
    | false => simp [seen, always, Journal.offer, KeylogHandler.journal]
    | true => simp [seen, always, Journal.offer, KeylogHandler.journal]

theorem offers_always (flush : Bool) (xs : List Entry) (h : KeylogHandler) :
    (offers always flush xs h).2.journal = xs.foldl Journal.offer h.journal := by
  induction xs generalizing h with
  | nil => rfl
  | cons x xs ih =>
    obtain ⟨success, journal⟩ := offer_always flush x h
    rw [offers, if_pos success, ih, journal, List.foldl_cons]

/-- One `Handle` call offers the entries of its event, in some order. -/
theorem handle_journal (hk : Hkdf) (order : MapOrder) (event : KeylogEvent) (h : KeylogHandler) :
    ∃ offered : List Entry, offered.Perm (entries hk event) ∧
      (handle hk always order event h).2.journal = offered.foldl Journal.offer h.journal := by
  obtain ⟨offered, perm, eq, -⟩ := handle_offers hk always order event h
  exact ⟨offered, perm, by rw [eq, offers_always]⟩

/-! ## Histories -/

/-- A journal that holds, in some order, exactly the first entry of every pair offered. -/
structure Holds (j : Journal) (offered written : List Entry) : Prop where
  lines : j.lines = written.map Entry.line
  seen : ∀ key, key ∈ j.seenKeys ↔ ∃ x ∈ written, x.key = key
  nodup : (written.map Entry.pair).Nodup
  first : ∀ x, x ∈ written ↔ offered.find? (fun y => decide (y.pair = x.pair)) = some x

theorem Holds.nil : Holds ⟨[], []⟩ [] [] := ⟨rfl, by simp, by simp, by simp⟩

theorem exists_find?_pair {l : List Entry} {z : Entry} {pair : Bytes × Bytes} (mem : z ∈ l)
    (same : z.pair = pair) :
    ∃ x, l.find? (fun y => decide (y.pair = pair)) = some x ∧ x.pair = pair := by
  have some : (l.find? (fun y => decide (y.pair = pair))).isSome := by
    rw [List.find?_isSome]
    exact ⟨z, mem, by simpa using same⟩
  obtain ⟨x, found⟩ := Option.isSome_iff_exists.mp some
  exact ⟨x, found, by simpa using List.find?_some found⟩

theorem find?_append_pair {offered : List Entry} {x y : Entry} :
    (offered ++ [y]).find? (fun z => decide (z.pair = x.pair)) = some x ↔
      offered.find? (fun z => decide (z.pair = x.pair)) = some x ∨
        ((∀ z ∈ offered, z.pair ≠ x.pair) ∧ y = x) := by
  rw [List.find?_append]
  cases found : offered.find? (fun z => decide (z.pair = x.pair)) with
  | none =>
    have absent : ∀ z ∈ offered, z.pair ≠ x.pair := by
      simpa [List.find?_eq_none] using found
    by_cases same : y.pair = x.pair
    · simp only [Option.none_or, List.find?_singleton, same, decide_true, if_true,
        Option.some.injEq, reduceCtorEq, false_or]
      exact ⟨fun h => ⟨absent, h⟩, And.right⟩
    · have : y ≠ x := fun h => same (h ▸ rfl)
      simp [same, this]
  | some z =>
    have isIn := List.mem_of_find?_eq_some found
    have pair : z.pair = x.pair := by simpa using List.find?_some found
    rw [Option.some_or]
    constructor
    · exact Or.inl
    · rintro (same | ⟨absent, -⟩)
      · exact same
      · exact absurd pair (absent z isIn)

section Offer

variable {j : Journal} {offered written : List Entry} {y : Entry}

/-- The lines that are written have the pairs of all that was offered. -/
theorem Holds.carried (h : Holds j offered written) (pair : Bytes × Bytes) :
    (∃ x ∈ written, x.pair = pair) ↔ ∃ z ∈ offered, z.pair = pair := by
  constructor
  · rintro ⟨x, hx, rfl⟩
    exact ⟨x, List.mem_of_find?_eq_some ((h.first x).mp hx), rfl⟩
  · rintro ⟨z, hz, rfl⟩
    obtain ⟨x, found, pair⟩ := exists_find?_pair hz rfl
    exact ⟨x, (h.first x).mpr (pair ▸ found), pair⟩

theorem Holds.seen_iff (h : Holds j offered written) :
    y.key ∈ j.seenKeys ↔ ∃ z ∈ offered, z.pair = y.pair := by
  rw [h.seen, ← h.carried]
  simp only [Entry.key_eq_iff]

/-- An entry that is seen again changes nothing. -/
theorem Holds.offer_seen (h : Holds j offered written) (seen : y.key ∈ j.seenKeys) :
    Holds (j.offer y) (offered ++ [y]) written := by
  rw [Journal.offer, if_pos seen]
  obtain ⟨z, hz, same⟩ := h.seen_iff.mp seen
  refine ⟨h.lines, h.seen, h.nodup, fun x => ?_⟩
  rw [h.first, find?_append_pair]
  constructor
  · exact Or.inl
  · rintro (found | ⟨absent, rfl⟩)
    · exact found
    · exact absurd same (absent z hz)

theorem Holds.offer_unseen (h : Holds j offered written) (unseen : y.key ∉ j.seenKeys) :
    Holds (j.offer y) (offered ++ [y]) (written ++ [y]) := by
  rw [Journal.offer, if_neg unseen]
  have fresh : ∀ z ∈ offered, z.pair ≠ y.pair :=
    fun z hz same => unseen (h.seen_iff.mpr ⟨z, hz, same⟩)
  have freshWritten : y.pair ∉ written.map Entry.pair := by
    intro hy
    obtain ⟨x, hx, same⟩ := List.mem_map.mp hy
    obtain ⟨z, hz, pair⟩ := (h.carried y.pair).mp ⟨x, hx, same⟩
    exact fresh z hz pair
  refine ⟨by simp [h.lines], fun key => ?_, ?_, fun x => ?_⟩
  · simp only [List.mem_cons, h.seen, List.mem_append, List.not_mem_nil, or_false]
    constructor
    · rintro (rfl | ⟨x, hx, rfl⟩)
      · exact ⟨y, Or.inr rfl, rfl⟩
      · exact ⟨x, Or.inl hx, rfl⟩
    · rintro ⟨x, hx | rfl, rfl⟩
      · exact Or.inr ⟨x, hx, rfl⟩
      · exact Or.inl rfl
  · rw [List.map_append, List.map_singleton, ← List.concat_eq_append]
    exact h.nodup.concat freshWritten
  · rw [List.mem_append, List.mem_singleton, h.first, find?_append_pair]
    constructor
    · rintro (found | rfl)
      · exact Or.inl found
      · exact Or.inr ⟨fresh, rfl⟩
    · rintro (found | ⟨-, rfl⟩)
      · exact Or.inl found
      · exact Or.inr rfl

theorem Holds.offer (h : Holds j offered written) (y : Entry) :
    ∃ written', Holds (j.offer y) (offered ++ [y]) written' := by
  by_cases seen : y.key ∈ j.seenKeys
  · exact ⟨written, h.offer_seen seen⟩
  · exact ⟨written ++ [y], h.offer_unseen seen⟩

end Offer

theorem Holds.offerAll {j : Journal} {offered written : List Entry} (h : Holds j offered written)
    (new : List Entry) :
    ∃ written', Holds (new.foldl Journal.offer j) (offered ++ new) written' := by
  induction new generalizing j offered written with
  | nil => exact ⟨written, by simpa using h⟩
  | cons y new ih =>
    obtain ⟨written', next⟩ := h.offer y
    simpa using ih next

/-- Offers that differ only in the order of entries with different pairs have the same
first entries. -/
theorem find?_perm {before new new' : List Entry} (perm : new.Perm new')
    (nodup : (new'.map Entry.pair).Nodup) (pair : Bytes × Bytes) :
    (before ++ new).find? (fun y => decide (y.pair = pair)) =
      (before ++ new').find? (fun y => decide (y.pair = pair)) := by
  have unique : ∀ {l : List Entry}, (l.map Entry.pair).Nodup → ∀ {x}, x ∈ l → x.pair = pair →
      l.find? (fun y => decide (y.pair = pair)) = some x := by
    intro l distinct x hx same
    obtain ⟨z, found, pairs⟩ := exists_find?_pair hx same
    have hz := List.mem_of_find?_eq_some found
    rw [found, List.inj_on_of_nodup_map distinct hz hx (pairs.trans same.symm)]
  rw [List.find?_append, List.find?_append]
  congr 1
  cases found : new'.find? (fun y => decide (y.pair = pair)) with
  | none =>
    rw [List.find?_eq_none] at found ⊢
    exact fun y hy => found y (perm.mem_iff.mp hy)
  | some x =>
    have same : x.pair = pair := by simpa using List.find?_some found
    exact unique ((perm.map _).nodup_iff.mpr nodup)
      (perm.mem_iff.mpr (List.mem_of_find?_eq_some found)) same

/-- A whole history of `Handle` calls with a writer that never fails. -/
theorem handleAll_holds (hk : Hkdf) (history : List (KeylogEvent × MapOrder)) {h : KeylogHandler}
    {offered written : List Entry} (start : Holds h.journal offered written) :
    ∃ written', Holds (handleAll hk always history h).journal
      (offered ++ (history.map Prod.fst).flatMap (entries hk)) written' := by
  induction history generalizing h offered written with
  | nil => exact ⟨written, by simpa [handleAll] using start⟩
  | cons call rest ih =>
    obtain ⟨event, order⟩ := call
    obtain ⟨new, perm, eq⟩ := handle_journal hk order event h
    obtain ⟨written', next⟩ := start.offerAll new
    have reordered : Holds (handle hk always order event h).2.journal
        (offered ++ entries hk event) written' := by
      rw [eq]
      refine ⟨next.lines, next.seen, next.nodup, fun x => ?_⟩
      rw [next.first, find?_perm perm (entries_pairs_nodup hk event)]
    simpa [handleAll] using ih reordered

/-- For every history of events and every order in which the secrets maps are visited, the
lines written are those of a list of entries with distinct label and client random, which
holds for each pair exactly the first accepted entry; keys and lines of different pairs
never coincide. -/
theorem keylog_first_entry_once (hk : Hkdf) (history : List (KeylogEvent × MapOrder)) :
    (∃ written : List Entry,
      (handleAll hk always history newKeylogHandler).writer.lines = written.map Entry.line ∧
      (written.map Entry.pair).Nodup ∧
      ∀ x, x ∈ written ↔ firstEntry hk (history.map Prod.fst) x.pair = some x) ∧
    (∀ x y : Entry, x.key = y.key → x.pair = y.pair) ∧ Function.Injective Entry.line := by
  refine ⟨?_, fun x y => Entry.key_eq_iff.mp, Entry.line_injective⟩
  obtain ⟨written, h⟩ := handleAll_holds hk history (h := newKeylogHandler) Holds.nil
  exact ⟨written, h.lines, h.nodup, by simpa [firstEntry] using h.first⟩

end ECapture.Keylog
