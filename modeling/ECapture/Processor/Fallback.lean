import Mathlib.Data.List.TakeWhile
import ECapture.Library.HexDump
import ECapture.Processor.Registry

/-!
# What the default parser shows

`DefaultParser.Display` dumps a payload whose first byte is not printable. It sends any other
through `CToGoString`, which stops at the first zero byte, so that a text with a zero byte in it
loses the rest.
-/

namespace ECapture.Processor
open Library

/-- The payload is shown as a dump. -/
def dumped : Bytes → Bool
  | [] => true
  | c :: _ => c < 32 ∨ 126 < c

/-- A dump, or a text that has no zero byte. -/
def NothingHidden (payload : Bytes) : Prop := dumped payload = true ∨ 0 ∉ payload

instance (payload : Bytes) : Decidable (NothingHidden payload) :=
  inferInstanceAs (Decidable (_ ∨ _))

theorem display_default (reader : Bytes) :
    defaultParser.display reader =
      if dumped reader then hexDump reader else cToGoString reader := by
  cases reader with
  | nil => rfl
  | cons c reader =>
    simp only [defaultParser, dumped]
    split
    case isTrue dump => simp [dump]
    case isFalse text => simp [text]

/-! ## The conversion of a C string -/

theorem cToGoString_eq_self_iff (b : Bytes) : cToGoString b = b ↔ 0 ∉ b := by
  rw [cToGoString, List.takeWhile_eq_self_iff]
  constructor
  · intro all mem
    simpa using all 0 mem
  · intro absent c mem
    have other : c ≠ 0 := fun zero => absent (zero ▸ mem)
    simpa using other

theorem length_cToGoString_le (b : Bytes) : (cToGoString b).length ≤ b.length :=
  (List.takeWhile_prefix _).length_le

/-- A dump is longer than its bytes. -/
theorem cToGoString_ne_hexDump {b : Bytes} (nonempty : b ≠ []) : cToGoString b ≠ hexDump b := by
  intro eq
  have pos := List.length_pos_iff.mpr nonempty
  have short := length_cToGoString_le b
  rw [eq, length_hexDump] at short
  omega

/-! ## The display -/

/-- The display is the payload or a dump of it exactly when nothing is hidden. -/
theorem display_default_iff (payload : Bytes) :
    (defaultParser.display payload = payload ∨ defaultParser.display payload = hexDump payload) ↔
      NothingHidden payload := by
  rw [display_default]
  cases dump : dumped payload with
  | true => simp [NothingHidden, dump]
  | false =>
    have nonempty : payload ≠ [] := by
      rintro rfl
      cases dump
    simp [NothingHidden, dump, cToGoString_eq_self_iff, cToGoString_ne_hexDump nonempty]

/-- Two payloads of one form, of which nothing is hidden, are shown differently. -/
theorem display_default_inj {payload other : Bytes} (h : NothingHidden payload)
    (h' : NothingHidden other) (form : dumped other = dumped payload)
    (shown : defaultParser.display other = defaultParser.display payload) : other = payload := by
  rw [display_default, display_default, form] at shown
  cases dump : dumped payload with
  | true =>
    rw [dump] at shown
    exact hexDump_injective shown
  | false =>
    have text : ∀ b, NothingHidden b → dumped b = false → cToGoString b = b := by
      rintro b (dump | absent) form
      · cases dump.symm.trans form
      · exact (cToGoString_eq_self_iff b).mpr absent
    rw [dump] at shown
    have same : cToGoString other = cToGoString payload := shown
    rwa [text payload h dump, text other h' (form.trans dump)] at same

namespace Parser

variable {ρ σ δ : Type} (net : Net ρ σ δ)

/-- `Write` of each of the slices. -/
def writeAll (writes : List Bytes) (parser : Parser ρ σ δ) : Parser ρ σ δ :=
  writes.foldl (fun parser b => parser.write net b) parser

theorem writeAll_default (writes : List Bytes) (reader : Bytes) :
    (Parser.default reader).writeAll net writes = .default (reader ++ writes.flatten) := by
  induction writes generalizing reader with
  | nil => simp [writeAll]
  | cons b writes ih =>
    have rest := ih (reader ++ b)
    rw [List.flatten_cons, ← List.append_assoc]
    exact rest

/-- A parser of type null is a new `DefaultParser`. -/
theorem newParser_eq_default {net : Net ρ σ δ} {order : List ParserType} {payload : Bytes}
    (fallback : (newParser net order payload).parserType = .null) :
    newParser net order payload = .default [] := by
  unfold newParser at fallback ⊢
  split
  case isTrue => rfl
  case isFalse nonempty =>
    rw [if_neg nonempty] at fallback
    cases found : order.find? fun type => detect net type payload with
    | none => rfl
    | some t =>
      rw [found] at fallback
      cases t with
      | null | webSocket => rfl
      | httpRequest | httpResponse | http2Request | http2Response => cases fallback

/-- For a payload of which `NewParser` recognises nothing, `Display` returns the payload or a dump
of all of it exactly when nothing is hidden. Then no other such payload of this form is shown
the same way. -/
theorem fallback_display_iff {order : List ParserType} {payload : Bytes}
    (fallback : (newParser net order payload).parserType = .null) {writes : List Bytes}
    (whole : writes.flatten = payload) :
    let shown := (((newParser net order payload).writeAll net writes).display net).1
    (shown = payload ∨ shown = hexDump payload ↔ NothingHidden payload) ∧
      (NothingHidden payload → ∀ other, NothingHidden other → dumped other = dumped payload →
        defaultParser.display other = shown → other = payload) := by
  have shown : (((newParser net order payload).writeAll net writes).display net).1 =
      defaultParser.display payload := by
    rw [newParser_eq_default fallback, writeAll_default, whole]
    rfl
  simp only [shown]
  exact ⟨display_default_iff payload, fun h other h' form same =>
    display_default_inj h h' form same⟩

theorem fallback_display_iff_hello :
    let payload := str "hello"
    (((newParser smallNet registered payload).writeAll smallNet
      [str "he", str "llo"]).display smallNet).1 = payload ∨
    (((newParser smallNet registered payload).writeAll smallNet
      [str "he", str "llo"]).display smallNet).1 = hexDump payload :=
  (fallback_display_iff smallNet (by decide +kernel) (by decide +kernel)).1.mpr
    (by decide +kernel)

/-- `A`, a zero byte and `B` are shown as `A`, whatever comes in place of `B`. -/
theorem zero_byte_hides :
    (newParser smallNet registered [65, 0, 66]).parserType = .null ∧
      (((newParser smallNet registered [65, 0, 66]).writeAll smallNet
        [[65, 0, 66]]).display smallNet).1 = [65] ∧
      [65] ≠ hexDump [65, 0, 66] ∧
      (newParser smallNet registered [65, 0, 67]).parserType = .null ∧
      (((newParser smallNet registered [65, 0, 67]).writeAll smallNet
        [[65, 0, 67]]).display smallNet).1 = [65] := by
  decide +kernel

end Parser

end ECapture.Processor
