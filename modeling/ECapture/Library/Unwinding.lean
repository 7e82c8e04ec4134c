import Mathlib.Data.List.Basic

/-!
# Unwinding

Two runs of a system with hidden and visible events. An `Unwinding` is a relation between states
that hidden events keep, on either side alone and without output, and that a visible event keeps
when it happens on both sides, with the same output. Related states then give the same output for
any two runs with the same visible events (`Unwinding.observe_eq`).
-/

namespace ECapture.Library

variable {σ ε ω : Type*}

/-- Every event of the run is allowed in the state in which it happens. -/
def Along (ok : σ → ε → Prop) (step : σ → ε → σ) : σ → List ε → Prop
  | _, [] => True
  | s, e :: es => ok s e ∧ Along ok step (step s e) es

theorem Along.mono {ok ok' : σ → ε → Prop} {step : σ → ε → σ} (weaker : ∀ s e, ok s e → ok' s e)
    {s : σ} {es : List ε} (h : Along ok step s es) : Along ok' step s es := by
  induction es generalizing s with
  | nil => trivial
  | cons e es ih => exact ⟨weaker s e h.1, ih h.2⟩

/-- A fact about each event by itself joins the condition. -/
theorem Along.and_forall {ok : σ → ε → Prop} {step : σ → ε → σ} {P : ε → Prop} {s : σ}
    {es : List ε} (h : Along ok step s es) (each : ∀ e ∈ es, P e) :
    Along (fun s e => P e ∧ ok s e) step s es := by
  induction es generalizing s with
  | nil => trivial
  | cons e es ih =>
    have rest : ∀ e ∈ es, P e := fun e mem => each e (List.mem_cons_of_mem _ mem)
    exact ⟨⟨each e List.mem_cons_self, h.1⟩, ih h.2 rest⟩

/-- The output of a run, event after event. -/
def observe (step : σ → ε → σ) (obs : σ → ε → List ω) : σ → List ε → List ω
  | _, [] => []
  | s, e :: es => obs s e ++ observe step obs (step s e) es

structure Unwinding (ok : σ → ε → Prop) (step : σ → ε → σ) (obs : σ → ε → List ω)
    (visible : ε → Bool) (R : σ → σ → Prop) : Prop where
  symm : ∀ {s t}, R s t → R t s
  hidden : ∀ {s t e}, R s t → visible e = false → ok s e → obs s e = [] ∧ R (step s e) t
  both : ∀ {s t e}, R s t → visible e = true → ok s e → ok t e →
    obs s e = obs t e ∧ R (step s e) (step t e)

namespace Unwinding

variable {ok : σ → ε → Prop} {step : σ → ε → σ} {obs : σ → ε → List ω} {visible : ε → Bool}
  {R : σ → σ → Prop}

theorem observe_hidden (u : Unwinding ok step obs visible R) {s t : σ} {es : List ε}
    (related : R s t) (allowed : Along ok step s es) (none : es.filter visible = []) :
    observe step obs s es = [] := by
  induction es generalizing s with
  | nil => rfl
  | cons e es ih =>
    have unseen : visible e = false := by
      cases seen : visible e with
      | false => rfl
      | true => simp [seen] at none
    obtain ⟨silent, kept⟩ := u.hidden related unseen allowed.1
    rw [observe, silent, List.nil_append]
    exact ih kept allowed.2 (by simpa [unseen] using none)

/-- The run up to and with its first visible event, from a state related to another one in which
the event is allowed. -/
theorem observe_visible (u : Unwinding ok step obs visible R) {s t : σ} {e : ε}
    {rest es : List ε} (related : R s t) (seen : visible e = true) (allowed : ok s e)
    (along : Along ok step t es) (first : es.filter visible = e :: rest) :
    ∃ t' es', R (step s e) t' ∧ Along ok step t' es' ∧ es'.filter visible = rest ∧
      observe step obs t es = obs s e ++ observe step obs t' es' := by
  induction es generalizing t with
  | nil => cases first
  | cons e' es ih =>
    cases shown : visible e' with
    | false =>
      obtain ⟨silent, kept⟩ := u.hidden (u.symm related) shown along.1
      obtain ⟨t', es', related', along', rest', same⟩ :=
        ih (u.symm kept) along.2 (by simpa [shown] using first)
      exact ⟨t', es', related', along', rest', by rw [observe, silent, List.nil_append, same]⟩
    | true =>
      rw [List.filter_cons_of_pos shown] at first
      obtain ⟨rfl, rest'⟩ := List.cons.inj first
      obtain ⟨same, kept⟩ := u.both related seen allowed along.1
      exact ⟨step t e', es, kept, along.2, rest', by rw [observe, same]⟩

theorem observe_eq (u : Unwinding ok step obs visible R) {s t : σ} {es es' : List ε}
    (related : R s t) (along : Along ok step s es) (along' : Along ok step t es')
    (same : es.filter visible = es'.filter visible) :
    observe step obs s es = observe step obs t es' := by
  induction es generalizing s t es' with
  | nil => exact (u.observe_hidden (u.symm related) along' same.symm).symm
  | cons e es ih =>
    cases seen : visible e with
    | false =>
      obtain ⟨silent, kept⟩ := u.hidden related seen along.1
      rw [observe, silent, List.nil_append]
      exact ih kept along.2 along' (by simpa [seen] using same)
    | true =>
      rw [List.filter_cons_of_pos seen] at same
      obtain ⟨t', es'', related', along'', rest, eq⟩ :=
        u.observe_visible related seen along.1 along' same.symm
      rw [observe, eq, ih related' along.2 along'' rest.symm]

end Unwinding

end ECapture.Library
