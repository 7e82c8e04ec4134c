import Mathlib.Data.List.Nodup
import Mathlib.Data.List.Perm.Basic
import ECapture.Keylog.Handler

/-!
# What `Handle` offers to its writer

An event carries a list of `Entry` values, those the handler accepts. Every path of `Handle` offers
them to the writer, one after another, until a call fails. The path of TLS 1.2 calls `Flush`
between `Write` and the mark.
-/

namespace ECapture.Keylog
open Library

/-! ## Text determines its parts -/

theorem str_underscore : str "_" = [95] := rfl
theorem str_space : str " " = [32] := rfl

theorem dedupKey_inj {label label' random random' : Bytes}
    (h : dedupKey label random = dedupKey label' random') : label = label' ∧ random = random' := by
  simp only [dedupKey, str_underscore, List.append_assoc, List.singleton_append] at h
  obtain ⟨labels, digits⟩ :=
    cut_at_last (underscore_not_mem_hex random) (underscore_not_mem_hex random') h
  exact ⟨labels, hex_injective digits⟩

/-- A label may contain spaces; the last two still separate the fields. -/
theorem keylogLine_inj {label label' random random' secret secret' : Bytes}
    (h : keylogLine label random secret = keylogLine label' random' secret') :
    label = label' ∧ random = random' ∧ secret = secret' := by
  simp only [keylogLine, str_space] at h
  rw [List.append_assoc _ [32] (hex secret), List.append_assoc _ [32] (hex secret')] at h
  obtain ⟨front, secrets⟩ := cut_at_last (space_not_mem_hex secret) (space_not_mem_hex secret') h
  rw [List.append_assoc, List.append_assoc] at front
  obtain ⟨labels, randoms⟩ :=
    cut_at_last (space_not_mem_hex random) (space_not_mem_hex random') front
  exact ⟨labels, hex_injective randoms, hex_injective secrets⟩

/-! ## What an event carries -/

structure Entry where
  label : Bytes
  clientRandom : Bytes
  secret : Bytes
  deriving DecidableEq

namespace Entry

def pair (x : Entry) : Bytes × Bytes := (x.label, x.clientRandom)
def key (x : Entry) : Bytes := dedupKey x.label x.clientRandom
def line (x : Entry) : Bytes := keylogLine x.label x.clientRandom x.secret

theorem key_eq_iff {x y : Entry} : x.key = y.key ↔ x.pair = y.pair := by
  constructor
  · intro h
    obtain ⟨labels, randoms⟩ := dedupKey_inj h
    exact Prod.ext labels randoms
  · intro h
    rw [key, key, show x.label = y.label from congrArg Prod.fst h,
      show x.clientRandom = y.clientRandom from congrArg Prod.snd h]

theorem line_injective : Function.Injective line := by
  intro x y h
  obtain ⟨labels, randoms, values⟩ := keylogLine_inj h
  cases x
  cases y
  simp_all

end Entry

/-- The entries of a TLS 1.3 event for some of its secrets: empty and all-zero secrets are
not accepted, the others are cut to the length of the suite. -/
def acceptedSecrets (random : Bytes) (length : Nat) (secrets : List (Bytes × Bytes)) :
    List Entry :=
  (secrets.filter (fun s => !(s.2.isEmpty || isZeroBytes s.2))).map
    (fun s => ⟨s.1, random, s.2.take length⟩)

/-- The entries an event carries and the handler accepts. -/
def entries (hk : Hkdf) : KeylogEvent → List Entry
  | .goTLS e =>
    if e.label = [] ∨ e.clientRandom = [] ∨ e.secret = [] ∨ isZeroBytes e.secret then []
    else [⟨e.label, e.clientRandom, e.secret⟩]
  | .masterSecret e =>
    if e.clientRandom.length < ssl3RandomSize then []
    else if e.version ≤ 0x0303 then
      if e.masterKey.length < masterSecretMaxLen ∨
          isZeroBytes (e.masterKey.take masterSecretMaxLen) then []
      else [⟨keyLogLabelTLS12, e.clientRandom.take ssl3RandomSize,
        e.masterKey.take masterSecretMaxLen⟩]
    else acceptedSecrets (e.clientRandom.take ssl3RandomSize) (suiteParams e.cipherId).1
      (secrets hk e)
  | .other => []

/-! ## Labels of one event -/

theorem secrets_labels_nodup (hk : Hkdf) (e : MasterSecretEvent) :
    ((secrets hk e).map Prod.fst).Nodup := by
  unfold secrets
  dsimp only
  split
  · simp only [List.append_nil, List.map_cons, List.map_nil]
    decide
  · split
    · simp only [List.cons_append, List.nil_append, List.map_cons, List.map_nil]
      decide
    · simp only [List.append_nil, List.map_cons, List.map_nil]
      decide

/-- An event carries at most one entry for a label and client random. -/
theorem entries_pairs_nodup (hk : Hkdf) (event : KeylogEvent) :
    ((entries hk event).map Entry.pair).Nodup := by
  cases event with
  | goTLS e =>
    rw [entries]
    split <;> simp
  | other => simp [entries]
  | masterSecret e =>
    rw [entries]
    split
    · simp
    · split
      · split <;> simp
      · have labels := (secrets_labels_nodup hk e).sublist
          ((List.filter_sublist (p := fun s => !(s.2.isEmpty || isZeroBytes s.2))
            (l := secrets hk e)).map Prod.fst)
        refine List.Nodup.of_map Prod.fst ?_
        simpa [acceptedSecrets, Entry.pair, Function.comp_def] using labels

/-! ## Offers -/

variable (hk : Hkdf) (ok : Nat → Bool)

/-- Write an entry unless its key is marked, flush when the path does so, and mark it. The first
component is false when a call has failed. -/
def offer (flush : Bool) (x : Entry) (h : KeylogHandler) : Bool × KeylogHandler :=
  if x.key ∈ h.seenKeys then (true, h)
  else if ok h.writer.calls then
    let written : KeylogHandler :=
      { h with writer := ⟨h.writer.lines ++ [x.line], h.writer.calls + 1⟩ }
    if flush then
      if ok (h.writer.calls + 1) then
        (true, { written with
          writer := { written.writer with calls := h.writer.calls + 2 }
          seenKeys := x.key :: h.seenKeys })
      else (false, { written with writer := { written.writer with calls := h.writer.calls + 2 } })
    else (true, { written with seenKeys := x.key :: h.seenKeys })
  else (false, { h with writer := { h.writer with calls := h.writer.calls + 1 } })

/-- Offers up to the first failure. -/
def offers (flush : Bool) : List Entry → KeylogHandler → Bool × KeylogHandler
  | [], h => (true, h)
  | x :: xs, h =>
    if (offer ok flush x h).1 then offers flush xs (offer ok flush x h).2 else offer ok flush x h

/-- The path of TLS 1.2 flushes. -/
def flushes : KeylogEvent → Bool
  | .masterSecret e => e.version ≤ 0x0303
  | _ => false

theorem acceptedSecrets_cons_skip {label random secret : Bytes} {length : Nat}
    (rest : List (Bytes × Bytes)) (skip : secret.length = 0 ∨ isZeroBytes secret) :
    acceptedSecrets random length ((label, secret) :: rest) =
      acceptedSecrets random length rest := by
  have : (!(secret.isEmpty || isZeroBytes secret)) = false := by
    rcases skip with skip | skip
    · simp [List.length_eq_zero_iff.mp skip]
    · simp [skip]
  rw [acceptedSecrets, acceptedSecrets, List.filter_cons_of_neg (by simp [this])]

theorem acceptedSecrets_cons {label random secret : Bytes} {length : Nat}
    (rest : List (Bytes × Bytes)) (keep : ¬ (secret.length = 0 ∨ isZeroBytes secret)) :
    acceptedSecrets random length ((label, secret) :: rest) =
      ⟨label, random, secret.take length⟩ :: acceptedSecrets random length rest := by
  have : (!(secret.isEmpty || isZeroBytes secret)) = true := by
    rw [not_or, List.length_eq_zero_iff] at keep
    simp [keep]
  rw [acceptedSecrets, List.filter_cons_of_pos (by simpa using this), List.map_cons,
    acceptedSecrets]

theorem handleTLS12_offers {e : MasterSecretEvent} (old : e.version ≤ 0x0303) (h : KeylogHandler) :
    (handleTLS12 ok e h).2 = (offers ok true (entries hk (.masterSecret e)) h).2 ∧
      ((handleTLS12 ok e h).1 = .ok () →
        (offers ok true (entries hk (.masterSecret e)) h).1 = true) := by
  unfold handleTLS12 entries
  dsimp only
  by_cases short : e.clientRandom.length < ssl3RandomSize
  · simp [short, offers]
  · by_cases shortKey : e.masterKey.length < masterSecretMaxLen
    · simp [short, shortKey, old, offers]
    · by_cases zero : isZeroBytes (e.masterKey.take masterSecretMaxLen)
      · simp [short, shortKey, zero, old, offers]
      · rw [if_neg short, if_neg shortKey, if_neg zero, if_neg short, if_pos old,
          if_neg (not_or.mpr ⟨shortKey, zero⟩)]
        simp only [offers, offer, KeylogHandler.write, KeylogHandler.flush, failWrite,
          KeylogHandler.mark, Entry.key, Entry.line]
        by_cases seen : dedupKey keyLogLabelTLS12 (e.clientRandom.take ssl3RandomSize) ∈ h.seenKeys
        · simp [seen]
        · by_cases written : ok h.writer.calls
          · by_cases flushed : ok (h.writer.calls + 1)
            · simp [seen, written, flushed]
            · simp [seen, written, flushed]
          · simp [seen, written]

theorem handleGoTLS_offers (e : GoTLSMasterSecretEvent) (h : KeylogHandler) :
    (handleGoTLS ok e h).2 = (offers ok false (entries hk (.goTLS e)) h).2 ∧
      ((handleGoTLS ok e h).1 = .ok () →
        (offers ok false (entries hk (.goTLS e)) h).1 = true) := by
  unfold handleGoTLS entries
  dsimp only
  by_cases refused : e.label = [] ∨ e.clientRandom = [] ∨ e.secret = [] ∨ isZeroBytes e.secret
  · rw [if_pos refused]
    rcases refused with refused | refused | refused | refused <;> simp only [refused, offers] <;>
      grind
  · obtain ⟨label, random, secret, zero⟩ : e.label ≠ [] ∧ e.clientRandom.length ≠ 0 ∧
        e.secret.length ≠ 0 ∧ ¬ isZeroBytes e.secret := by
      simpa [List.length_eq_zero_iff] using refused
    rw [if_neg refused, if_neg label, if_neg random, if_neg secret, if_neg zero]
    simp only [offers, offer, KeylogHandler.write, failWrite, KeylogHandler.mark, Entry.key,
      Entry.line]
    by_cases seen : dedupKey e.label e.clientRandom ∈ h.seenKeys
    · simp [seen]
    · by_cases written : ok h.writer.calls
      · simp [seen, written]
      · simp [seen, written]

theorem writeSecrets_offers (random : Bytes) (length : Nat) (data : List (Bytes × Bytes))
    (h : KeylogHandler) :
    (writeSecrets ok random length data h).2 =
        (offers ok false (acceptedSecrets random length data) h).2 ∧
      ((writeSecrets ok random length data h).1 = .ok () →
        (offers ok false (acceptedSecrets random length data) h).1 = true) := by
  induction data generalizing h with
  | nil => exact ⟨rfl, fun _ => rfl⟩
  | cons entry rest ih =>
    obtain ⟨label, secret⟩ := entry
    rw [writeSecrets]
    by_cases skip : secret.length = 0 ∨ isZeroBytes secret
    · rw [if_pos skip, acceptedSecrets_cons_skip rest skip]
      exact ih h
    · rw [if_neg skip, acceptedSecrets_cons rest skip]
      simp only [offers, offer, KeylogHandler.write, KeylogHandler.mark, Entry.key, Entry.line]
      by_cases seen : dedupKey label random ∈ h.seenKeys
      · simpa [seen] using ih h
      · by_cases written : ok h.writer.calls
        · simpa [seen, written] using ih _
        · simp [seen, written]

/-- One `Handle` call offers the entries of its event, in some order. -/
theorem handle_offers (order : MapOrder) (event : KeylogEvent) (h : KeylogHandler) :
    ∃ offered : List Entry, offered.Perm (entries hk event) ∧
      (handle hk ok order event h).2 = (offers ok (flushes event) offered h).2 ∧
      ((handle hk ok order event h).1 = .ok () →
        (offers ok (flushes event) offered h).1 = true) := by
  cases event with
  | goTLS e => exact ⟨_, .refl _, handleGoTLS_offers hk ok e h⟩
  | other => exact ⟨[], .refl _, rfl, fun _ => rfl⟩
  | masterSecret e =>
    by_cases old : e.version ≤ 0x0303
    · refine ⟨_, .refl _, ?_⟩
      rw [handle, if_pos old, flushes, decide_eq_true old]
      exact handleTLS12_offers hk ok old h
    · rw [handle, if_neg old, flushes, decide_eq_false old, handleTLS13]
      by_cases short : e.clientRandom.length < ssl3RandomSize
      · refine ⟨[], by simp [entries, short], ?_⟩
        simp [short, offers]
      · refine ⟨acceptedSecrets (e.clientRandom.take ssl3RandomSize)
          (suiteParams e.cipherId).1 (order.visit (secrets hk e)), ?_, ?_⟩
        · rw [entries, if_neg short, if_neg old]
          exact ((order.perm (secrets hk e)).filter _).map _
        · rw [if_neg short]
          exact writeSecrets_offers ok _ _ _ h

end ECapture.Keylog
