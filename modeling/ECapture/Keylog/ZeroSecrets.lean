import ECapture.Keylog.Failures

/-!
# Secrets of zero bytes

A secret that was captured too early is all zeros, and every path skips it. On the paths of TLS 1.2
and of Go the test and the line use the same bytes. The path of TLS 1.3 tests the whole array of 64
bytes and writes only as many as the hash has.
-/

namespace ECapture.Keylog
open Library

/-- The secrets of a TLS 1.3 event that are written as they came. -/
def directSecrets (e : MasterSecretEvent) : List Bytes :=
  [e.clientAppTrafficSecret.toList, e.serverAppTrafficSecret.toList,
    e.exporterMasterSecret.toList, e.earlySecret.toList]

/-- No secret of a TLS 1.3 event is zero in the bytes that are written and not in those behind. -/
def TailsZero : KeylogEvent → Prop
  | .masterSecret e =>
    e.clientRandom.length < ssl3RandomSize ∨ e.version ≤ 0x0303 ∨
      ∀ secret ∈ directSecrets e, isZeroBytes (secret.take (suiteParams e.cipherId).1) →
        isZeroBytes secret
  | _ => True

/-- Whatever the writer does, every line that `Handle` writes for the event has a secret that is
neither empty nor zero, and only the pairs of these lines are marked. -/
def WritesNoZero (hk : Hkdf) (event : KeylogEvent) : Prop :=
  ∀ (ok : Nat → Bool) (order : MapOrder) (h : KeylogHandler), ∃ added : List Entry,
    Adds h.journal (handle hk ok order event h).2.journal added ∧
      ∀ x ∈ added, x.secret ≠ [] ∧ isZeroBytes x.secret = false

variable {hk : Hkdf}

/-! ## The secrets of an event -/

theorem mem_acceptedSecrets {x : Entry} {random : Bytes} {length : Nat}
    {secrets : List (Bytes × Bytes)} :
    x ∈ acceptedSecrets random length secrets ↔
      ∃ s ∈ secrets, isZeroBytes s.2 = false ∧ x = ⟨s.1, random, s.2.take length⟩ := by
  have skipped : ∀ s : Bytes × Bytes, (!(s.2.isEmpty || isZeroBytes s.2)) = true ↔
      isZeroBytes s.2 = false := by
    rintro ⟨label, secret⟩
    cases secret with
    | nil => simp [isZeroBytes]
    | cons b secret => simp
  simp only [acceptedSecrets, List.mem_map, List.mem_filter, skipped, and_assoc, eq_comm]

/-- A secret that is not one of the arrays has the length of the hash. -/
theorem mem_secrets {e : MasterSecretEvent} {s : Bytes × Bytes} (mem : s ∈ secrets hk e) :
    s.2 ∈ directSecrets e ∨ s.2.length = (suiteParams e.cipherId).1 := by
  unfold secrets at mem
  dsimp only at mem
  rcases List.mem_append.mp mem with direct | derived
  · refine .inl ?_
    simp only [List.mem_cons, List.not_mem_nil, or_false] at direct
    rcases direct with rfl | rfl | rfl | rfl <;> simp [directSecrets]
  · refine .inr ?_
    split at derived
    case h_1 => cases derived
    case h_2 =>
      split at derived
      case isFalse => cases derived
      case isTrue =>
        simp only [List.mem_cons, List.not_mem_nil, or_false] at derived
        rcases derived with rfl | rfl <;> simp [expandLabel]

/-- Every array of the event is one of its secrets. -/
theorem exists_secret (hk : Hkdf) {e : MasterSecretEvent} {secret : Bytes}
    (mem : secret ∈ directSecrets e) : ∃ label, (label, secret) ∈ secrets hk e := by
  simp only [directSecrets, List.mem_cons, List.not_mem_nil, or_false] at mem
  rcases mem with rfl | rfl | rfl | rfl
  · exact ⟨keyLogLabelClientTraffic, by simp [secrets]⟩
  · exact ⟨keyLogLabelServerTraffic, by simp [secrets]⟩
  · exact ⟨keyLogLabelExporterSecret, by simp [secrets]⟩
  · exact ⟨keyLogLabelClientEarlyTafficSecret, by simp [secrets]⟩

/-- The entries of an event without such a secret are not zero. -/
theorem entry_nonzero {event : KeylogEvent} (tails : TailsZero event) {x : Entry}
    (mem : x ∈ entries hk event) : isZeroBytes x.secret = false := by
  cases event with
  | goTLS e =>
    rw [entries] at mem
    split at mem
    case isTrue => cases mem
    case isFalse accepted =>
      obtain rfl := List.mem_singleton.mp mem
      simp only [not_or] at accepted
      simpa using accepted.2.2.2
  | other => cases mem
  | masterSecret e =>
    rw [entries] at mem
    split at mem
    case isTrue => cases mem
    case isFalse long =>
      split at mem
      case isTrue =>
        split at mem
        case isTrue => cases mem
        case isFalse accepted =>
          obtain rfl := List.mem_singleton.mp mem
          simp only [not_or] at accepted
          simpa using accepted.2
      case isFalse new =>
        obtain ⟨s, carried, nonzero, rfl⟩ := mem_acceptedSecrets.mp mem
        rcases mem_secrets carried with direct | derived
        · have whole := ((tails.resolve_left long).resolve_left new) s.2 direct
          by_contra zero
          simp [whole (by simpa using zero)] at nonzero
        · rw [← derived, List.take_length]
          exact nonzero

theorem ne_nil_of_nonzero {secret : Bytes} (nonzero : isZeroBytes secret = false) :
    secret ≠ [] := by
  rintro rfl
  cases nonzero

/-! ## What is written -/

theorem writeSecrets_always (random : Bytes) (length : Nat) (data : List (Bytes × Bytes))
    (h : KeylogHandler) : (writeSecrets always random length data h).1 = .ok () := by
  induction data generalizing h with
  | nil => rfl
  | cons entry rest ih =>
    obtain ⟨label, secret⟩ := entry
    rw [writeSecrets]
    split
    · exact ih h
    · dsimp only
      split
      · exact ih h
      · exact ih _

/-- A secret that is zero in the bytes that are written gets a line of its own. -/
theorem writes_zero {e : MasterSecretEvent} (long : ¬ e.clientRandom.length < ssl3RandomSize)
    (new : ¬ e.version ≤ 0x0303) {secret : Bytes} (mem : secret ∈ directSecrets e)
    (zero : isZeroBytes (secret.take (suiteParams e.cipherId).1))
    (nonzero : isZeroBytes secret = false) : ¬ WritesNoZero hk (.masterSecret e) := by
  intro clean
  let order : MapOrder := ⟨id, fun _ => .refl _⟩
  obtain ⟨added, adds, valid⟩ := clean always order newKeylogHandler
  obtain ⟨added', -, adds', all⟩ :=
    handle_adds_any hk always order (.masterSecret e) newKeylogHandler
  have done : (handle hk always order (.masterSecret e) newKeylogHandler).1 = .ok () := by
    rw [handle, if_neg new, handleTLS13, if_neg long]
    exact writeSecrets_always _ _ _ _
  have same : added = added' := by
    have lines : [] ++ added.map Entry.line = [] ++ added'.map Entry.line :=
      adds.lines.symm.trans adds'.lines
    exact List.map_injective_iff.mpr Entry.line_injective lines
  obtain ⟨label, carried⟩ := exists_secret hk mem
  let x : Entry := ⟨label, e.clientRandom.take ssl3RandomSize,
    secret.take (suiteParams e.cipherId).1⟩
  have entry : x ∈ entries hk (.masterSecret e) := by
    rw [entries, if_neg long, if_neg new]
    exact mem_acceptedSecrets.mpr ⟨(label, secret), carried, nonzero, rfl⟩
  have written : x ∈ added' := (all done x entry).2 List.not_mem_nil
  have invalid := (valid x (same ▸ written)).2
  rw [zero] at invalid
  cases invalid

theorem writesNoZero_iff (hk : Hkdf) (event : KeylogEvent) :
    WritesNoZero hk event ↔ TailsZero event := by
  constructor
  · intro clean
    cases event with
    | goTLS e => trivial
    | other => trivial
    | masterSecret e =>
      by_cases long : e.clientRandom.length < ssl3RandomSize
      · exact .inl long
      · by_cases old : e.version ≤ 0x0303
        · exact .inr (.inl old)
        · refine .inr (.inr fun secret mem zero => ?_)
          by_contra nonzero
          exact writes_zero long old mem zero (by simpa using nonzero) clean
  · intro tails ok order h
    obtain ⟨added, carried, adds, -⟩ := handle_adds_any hk ok order event h
    refine ⟨added, adds, fun x mem => ?_⟩
    have nonzero := entry_nonzero tails (carried x mem)
    exact ⟨ne_nil_of_nonzero nonzero, nonzero⟩

/-- Every line of a history has a secret that is not zero, and every marked key is that of a
line. -/
theorem lines_nonzero (hk : Hkdf) (ok : Nat → Bool) {history : List (KeylogEvent × MapOrder)}
    (tails : ∀ call ∈ history, TailsZero call.1) (h : KeylogHandler) :
    ∃ added : List Entry, Adds h.journal (handleAll hk ok history h).journal added ∧
      ∀ x ∈ added, x.secret ≠ [] ∧ isZeroBytes x.secret = false := by
  induction history generalizing h with
  | nil => exact ⟨[], .refl _, by simp⟩
  | cons call history ih =>
    obtain ⟨event, order⟩ := call
    obtain ⟨first, adds, valid⟩ :=
      (writesNoZero_iff hk event).mpr (tails _ List.mem_cons_self) ok order h
    obtain ⟨rest, adds', valid'⟩ :=
      ih (fun call mem => tails call (List.mem_cons_of_mem _ mem)) (handle hk ok order event h).2
    refine ⟨first ++ rest, adds.trans adds', fun x mem => ?_⟩
    rcases List.mem_append.mp mem with mem | mem
    · exact valid x mem
    · exact valid' x mem

/-- `Handle` writes no empty or zero secret for an event, and marks no pair for one, exactly when no
secret of a TLS 1.3 event is zero in the bytes that are written only. A history of such events
has no line with such a secret and no mark without a line. A secret of a pair that is not marked is
written when `Handle` returns nil. -/
theorem zero_secrets_skipped (hk : Hkdf) :
    (∀ event, WritesNoZero hk event ↔ TailsZero event) ∧
    (∀ ok history, (∀ call ∈ history, TailsZero call.1) → ∃ written : List Entry,
      (afterCalls hk ok history).writer.lines = written.map Entry.line ∧
      (∀ x ∈ written, x.secret ≠ [] ∧ isZeroBytes x.secret = false) ∧
      ∀ key ∈ (afterCalls hk ok history).seenKeys, ∃ x ∈ written, x.key = key) ∧
    ∀ ok (h : KeylogHandler) event order, (handle hk ok order event h).1 = .ok () →
      ∀ x ∈ entries hk event, x.key ∉ h.seenKeys →
        x.line ∈ (handle hk ok order event h).2.writer.lines := by
  refine ⟨writesNoZero_iff hk, fun ok history tails => ?_, fun ok h event order done x mem => ?_⟩
  · obtain ⟨written, adds, valid⟩ := lines_nonzero hk ok tails newKeylogHandler
    refine ⟨written, adds.lines, valid, fun key seen => ?_⟩
    exact (adds.marked key seen).resolve_left List.not_mem_nil
  · obtain ⟨added, -, adds, all⟩ := handle_adds_any hk ok order event h
    intro unseen
    have lines : (handle hk ok order event h).2.writer.lines =
        h.writer.lines ++ added.map Entry.line := adds.lines
    rw [lines]
    exact List.mem_append_right _ (List.mem_map_of_mem ((all done x mem).2 unseen))

/-- A TLS 1.3 event with TLS_AES_128_GCM_SHA256 and one secret. -/
def tls13Event (secret : Vector UInt8 64) : MasterSecretEvent :=
  let zeros := Vector.replicate 64 0
  ⟨0x0304, List.replicate 32 1, [], 0x1301, zeros, zeros, zeros, secret, zeros, zeros⟩

/-- A secret with 32 zero bytes in front of others is written as zeros, and the valid secret that
comes later is not written. -/
theorem zero_secret_written :
    let hk : Hkdf := ⟨fun _ _ _ n => Vector.replicate n 0⟩
    let order : MapOrder := ⟨id, fun _ => .refl _⟩
    let early := tls13Event (Vector.ofFn fun i : Fin 64 => if i.val < 32 then 0 else 7)
    let valid := tls13Event (Vector.replicate 64 9)
    (afterCalls hk always [(.masterSecret early, order), (.masterSecret valid, order)]).writer.lines =
      [keylogLine keyLogLabelClientTraffic (List.replicate 32 1) (List.replicate 32 0)] := by
  decide +kernel

end ECapture.Keylog
