import ECapture.Library.Fault
import ECapture.Processor.Worker

/-!
# Keys of workers

`GetUUID` of `base_event.go` joins five fields with underscores, one of them a name that may hold
underscores itself; `uuidParse` of `iworker.go` takes a socket off the end of such a key. It cuts
the key at every underscore for the socket, and the rest of the key at the last underscore.
-/

namespace ECapture.Processor
open Library

/-- The fields that `GetUUID` prints. -/
structure BaseEvent where
  dataType : Int64
  pid : UInt32
  tid : UInt32
  comm : Vector UInt8 16
  fd : UInt32

namespace BaseEvent

def getUUID (be : BaseEvent) : Bytes :=
  dec be.pid.toNat ++ 95 :: (dec be.tid.toNat ++ 95 :: (cToGoString be.comm.toList ++
    95 :: (dec be.fd.toNat ++ 95 :: decInt be.dataType.toInt)))

/-- The fields of a stream. -/
def Same (e₁ e₂ : BaseEvent) : Prop :=
  e₁.pid = e₂.pid ∧ e₁.tid = e₂.tid ∧
    cToGoString e₁.comm.toList = cToGoString e₂.comm.toList ∧
    e₁.fd = e₂.fd ∧ e₁.dataType = e₂.dataType

theorem getUUID_of_same {e₁ e₂ : BaseEvent} (same : e₁.Same e₂) : e₁.getUUID = e₂.getUUID := by
  obtain ⟨pid, tid, comm, fd, dataType⟩ := same
  rw [getUUID, getUUID, pid, tid, comm, fd, dataType]

/-- The numbers before the name are cut off in front, those after it from the end, so that the
name may hold any separator. -/
theorem same_of_getUUID {e₁ e₂ : BaseEvent} (equal : e₁.getUUID = e₂.getUUID) : e₁.Same e₂ := by
  obtain ⟨pid, rest⟩ := cut_at_first (underscore_not_mem_dec _) (underscore_not_mem_dec _) equal
  obtain ⟨tid, rest⟩ := cut_at_first (underscore_not_mem_dec _) (underscore_not_mem_dec _) rest
  have ends : ∀ e : BaseEvent, cToGoString e.comm.toList ++
      95 :: (dec e.fd.toNat ++ 95 :: decInt e.dataType.toInt) =
      (cToGoString e.comm.toList ++ 95 :: dec e.fd.toNat) ++ 95 :: decInt e.dataType.toInt := by
    intro e
    rw [List.append_assoc, List.cons_append]
  rw [ends, ends] at rest
  obtain ⟨rest, dataType⟩ :=
    cut_at_last (underscore_not_mem_decInt _) (underscore_not_mem_decInt _) rest
  obtain ⟨comm, fd⟩ := cut_at_last (underscore_not_mem_dec _) (underscore_not_mem_dec _) rest
  exact ⟨UInt32.toNat_inj.mp (dec_injective pid), UInt32.toNat_inj.mp (dec_injective tid), comm,
    UInt32.toNat_inj.mp (dec_injective fd), Int64.toInt_inj.mp (decInt_injective dataType)⟩

end BaseEvent

/-! ## Parsing -/

/-- `uuidParse`, with the slice that may be out of range. -/
def uuidParseChecked (uuid : Bytes) : Except Fault ParsedUUID :=
  let plain : ParsedUUID := ⟨uuid, 0, .default⟩
  if ! socketLifecycleUUIDPrefix.isPrefixOf uuid then .ok plain
  else
    let parts := uuid.splitOn 95
    match parseUint (parts.getLast (List.splitOn_ne_nil 95 uuid)) with
    | none => .ok plain
    | some sock =>
      if sock ≤ 0 then .ok plain
      else
        let core := uuid.drop socketLifecycleUUIDPrefix.length
        match lastIndex 95 core with
        | none => .error .sliceBounds
        | some i => (sliceTo i core).map fun uuidOutput => ⟨uuidOutput, sock, .sock⟩

/-- `sock:core_s`, with `s` in decimal. -/
def SocketUUID (uuid core : Bytes) (s : Nat) : Prop :=
  ∃ d, IsDecimal d ∧ natOf d = s ∧ 0 < s ∧ s < 2 ^ 64 ∧
    uuid = socketLifecycleUUIDPrefix ++ (core ++ 95 :: d)

theorem isPrefixOf_sock (core : Bytes) :
    socketLifecycleUUIDPrefix.isPrefixOf (socketLifecycleUUIDPrefix ++ core) = true :=
  List.isPrefixOf_iff_prefix.mpr (List.prefix_append _ _)

theorem underscore_not_mem_sock : (95 : UInt8) ∉ socketLifecycleUUIDPrefix := by decide +kernel

/-- The prefix is no number. -/
theorem parseUint_sock (core : Bytes) : parseUint (socketLifecycleUUIDPrefix ++ core) = none := by
  rw [Option.eq_none_iff_forall_ne_some]
  intro n parsed
  obtain ⟨digits, -, -⟩ := parseUint_eq_some.mp parsed
  have letter : (115 : UInt8) ∈ socketLifecycleUUIDPrefix := by decide +kernel
  exact absurd (digits.2 115 (List.mem_append_left core letter)).2 (by decide)

theorem getLast_splitOn_append (a : Bytes) {b : Bytes} (clean : (95 : UInt8) ∉ b) :
    ((a ++ 95 :: b).splitOn 95).getLast (List.splitOn_ne_nil _ _) = b := by
  simp only [List.splitOn_append_cons_self, List.splitOn_eq_singleton clean,
    List.getLast_append_of_ne_nil _ (List.cons_ne_nil b []), List.getLast_singleton]

/-- No prefix, a prefix with a core that is not cut, or a prefix with a core that is. -/
theorem uuid_cases (uuid : Bytes) :
    socketLifecycleUUIDPrefix.isPrefixOf uuid = false ∨
      (∃ core, uuid = socketLifecycleUUIDPrefix ++ core ∧ (95 : UInt8) ∉ core) ∨
      ∃ output last, uuid = socketLifecycleUUIDPrefix ++ (output ++ 95 :: last) ∧
        (95 : UInt8) ∉ last := by
  by_cases sock : socketLifecycleUUIDPrefix.isPrefixOf uuid = true
  case neg => exact .inl (Bool.eq_false_iff.mpr sock)
  case pos =>
    obtain ⟨core, rfl⟩ := List.isPrefixOf_iff_prefix.mp sock
    by_cases cut : (95 : UInt8) ∈ core
    case neg => exact .inr (.inl ⟨core, rfl, cut⟩)
    case pos =>
      obtain ⟨output, last, rfl, clean⟩ := exists_cut_at_last cut
      exact .inr (.inr ⟨output, last, rfl, clean⟩)

theorem uuidParse_of_not_isPrefixOf {uuid : Bytes}
    (other : socketLifecycleUUIDPrefix.isPrefixOf uuid = false) :
    uuidParse uuid = ⟨uuid, 0, .default⟩ := by
  simp only [uuidParse, other, Bool.not_false, if_true]

theorem uuidParse_of_not_mem {core : Bytes} (clean : (95 : UInt8) ∉ core) :
    uuidParse (socketLifecycleUUIDPrefix ++ core) =
      ⟨socketLifecycleUUIDPrefix ++ core, 0, .default⟩ := by
  simp only [uuidParse, isPrefixOf_sock, Bool.not_true, Bool.false_eq_true, if_false,
    List.drop_left, cutLast_of_not_mem clean]

section Cut

variable (output : Bytes) {last : Bytes} (clean : (95 : UInt8) ∉ last)
include clean

theorem uuidParse_of_none (parsed : parseUint last = none) :
    uuidParse (socketLifecycleUUIDPrefix ++ (output ++ 95 :: last)) =
      ⟨socketLifecycleUUIDPrefix ++ (output ++ 95 :: last), 0, .default⟩ := by
  simp only [uuidParse, isPrefixOf_sock, Bool.not_true, Bool.false_eq_true, if_false,
    List.drop_left, cutLast_append output clean, parsed]

theorem uuidParse_of_some {sock : UInt64} (parsed : parseUint last = some sock) :
    uuidParse (socketLifecycleUUIDPrefix ++ (output ++ 95 :: last)) =
      if sock ≤ 0 then ⟨socketLifecycleUUIDPrefix ++ (output ++ 95 :: last), 0, .default⟩
      else ⟨output, sock, .sock⟩ := by
  simp only [uuidParse, isPrefixOf_sock, Bool.not_true, Bool.false_eq_true, if_false,
    List.drop_left, cutLast_append output clean, parsed]

end Cut

/-- The slice is within bounds: where the end of the key is a number, an underscore stands before
it, behind the prefix. -/
theorem uuidParseChecked_eq (uuid : Bytes) : uuidParseChecked uuid = .ok (uuidParse uuid) := by
  rcases uuid_cases uuid with other | ⟨core, rfl, clean⟩ | ⟨output, last, rfl, clean⟩
  · rw [uuidParse_of_not_isPrefixOf other]
    simp only [uuidParseChecked, other, Bool.not_false, if_true]
  · have whole : (socketLifecycleUUIDPrefix ++ core).splitOn 95 =
        [socketLifecycleUUIDPrefix ++ core] := by
      refine List.splitOn_eq_singleton fun mem => ?_
      rcases List.mem_append.mp mem with mem | mem
      · exact underscore_not_mem_sock mem
      · exact clean mem
    rw [uuidParse_of_not_mem clean]
    simp only [uuidParseChecked, isPrefixOf_sock, Bool.not_true, Bool.false_eq_true, if_false,
      whole, List.getLast_singleton, parseUint_sock]
  · have split := getLast_splitOn_append (socketLifecycleUUIDPrefix ++ output) clean
    simp only [List.append_assoc] at split
    cases parsed : parseUint last with
    | none =>
      rw [uuidParse_of_none output clean parsed]
      simp only [uuidParseChecked, isPrefixOf_sock, Bool.not_true, Bool.false_eq_true, if_false,
        split, parsed]
    | some n =>
      have slice : sliceTo output.length (output ++ 95 :: last) = .ok output := by
        rw [sliceTo_of_le (List.length_append ▸ Nat.le_add_right _ _), List.take_left]
      rw [uuidParse_of_some output clean parsed]
      simp only [uuidParseChecked, isPrefixOf_sock, Bool.not_true, Bool.false_eq_true, if_false,
        split, parsed, List.drop_left, lastIndex_append output clean, slice]
      exact (apply_ite Except.ok _ _ _).symm

/-- A number that is no socket is zero. -/
theorem not_le_zero_iff {n : Nat} (small : n < 2 ^ 64) : ¬ UInt64.ofNat n ≤ 0 ↔ 0 < n := by
  rw [UInt64.le_iff_toNat_le, UInt64.toNat_ofNat_of_lt' small, UInt64.toNat_zero]
  omega

theorem uuidParse_of_socketUUID {uuid core : Bytes} {s : Nat} (shape : SocketUUID uuid core s) :
    uuidParse uuid = ⟨core, .ofNat s, .sock⟩ := by
  obtain ⟨d, digits, rfl, pos, small, rfl⟩ := shape
  have parsed : parseUint d = some (.ofNat (natOf d)) := parseUint_eq_some.mpr ⟨digits, small, rfl⟩
  rw [uuidParse_of_some core digits.underscore_not_mem parsed]
  exact if_neg ((not_le_zero_iff small).mpr pos)

theorem uuidParse_of_not_socketUUID {uuid : Bytes} (other : ∀ core s, ¬ SocketUUID uuid core s) :
    uuidParse uuid = ⟨uuid, 0, .default⟩ := by
  rcases uuid_cases uuid with other | ⟨core, rfl, clean⟩ | ⟨output, last, rfl, clean⟩
  · exact uuidParse_of_not_isPrefixOf other
  · exact uuidParse_of_not_mem clean
  · cases parsed : parseUint last with
    | none => exact uuidParse_of_none output clean parsed
    | some n =>
      rw [uuidParse_of_some output clean parsed]
      obtain ⟨digits, small, rfl⟩ := parseUint_eq_some.mp parsed
      refine if_pos (by_contra fun socket => ?_)
      have pos := (not_le_zero_iff small).mp socket
      exact other output (natOf last) ⟨last, digits, rfl, pos, small, rfl⟩

/-- A key stands for one stream, and it is parsed without a fault: a socket at its end is taken
off, and every other key is left as it is. -/
theorem worker_keys :
    (∀ e₁ e₂ : BaseEvent, e₁.getUUID = e₂.getUUID ↔ e₁.Same e₂) ∧
    (∀ uuid, Safe (uuidParseChecked uuid)) ∧
    (∀ uuid core s, SocketUUID uuid core s →
      uuidParseChecked uuid = .ok ⟨core, .ofNat s, .sock⟩) ∧
    ∀ uuid, (∀ core s, ¬ SocketUUID uuid core s) →
      uuidParseChecked uuid = .ok ⟨uuid, 0, .default⟩ := by
  simp only [uuidParseChecked_eq]
  refine ⟨fun e₁ e₂ => ⟨BaseEvent.same_of_getUUID, BaseEvent.getUUID_of_same⟩,
    fun uuid => Safe.ok _, ?_, ?_⟩
  · exact fun uuid core s shape => by rw [uuidParse_of_socketUUID shape]
  · exact fun uuid other => by rw [uuidParse_of_not_socketUUID other]

theorem worker_keys_at :
    uuidParseChecked (str "sock:1_2_a_b_3_7_t_4026") = .ok ⟨str "1_2_a_b_3_7_t", 4026, .sock⟩ := by
  obtain ⟨-, -, socket, -⟩ := worker_keys
  refine socket _ (str "1_2_a_b_3_7_t") 4026 ⟨str "4026", ⟨?_, ?_⟩, ?_, ?_, ?_, ?_⟩
  all_goals decide +kernel

end ECapture.Processor
