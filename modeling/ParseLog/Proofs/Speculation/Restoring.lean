import ParseLog.Branches.Join
import ParseLog.Proofs.Speculation.Conservation
/-!
# Inputs after rollbacks

Only a rollback changes the buffer of the input: it forgets what was consumed before the marker. So
two runs from one parse that come to the same rest join only if their last rollbacks left the same
buffer. If they did not, the failure shows one text twice.
-/

namespace ParseLog
set_option autoImplicit false

theorem Input.eq_iff_buffer {i j : Input} (hrest : i.rest = j.rest)
    (hcomplete : i.complete = j.complete) : i = j ↔ i.buffer = j.buffer := by
  obtain ⟨consumed, rest, complete⟩ := i
  obtain ⟨consumed', rest', complete'⟩ := j
  obtain rfl : rest = rest' := hrest
  obtain rfl : complete = complete' := hcomplete
  simp [buffer]

/-- Inputs that look alike are the same or their failure to join shows one text twice. -/
theorem jointInput_pair {i j : Input} (hrest : i.rest = j.rest)
    (hcomplete : i.complete = j.complete) :
    jointInput [i, j] = if i.buffer = j.buffer then .ok i
      else .error (.differentInputs i.render i.render) := by
  have hshown : j.render = i.render := by simp [Input.render, hrest, hcomplete]
  by_cases h : i = j
  · subst j
    simp [jointInput]
  · have hbuffer : i.buffer ≠ j.buffer := fun hb => h ((Input.eq_iff_buffer hrest hcomplete).mpr hb)
    rw [if_neg hbuffer]
    simp [jointInput, Ne.symm h, hshown]

namespace Parse

/-- The input as the last rollback among the actions leaves it, or `start` if none of them is a
rollback that succeeds. -/
def lastRestored (start : Input) (p : Parse) : List Action → Input
  | [] => start
  | a :: as =>
    match a, p.act? a with
    | .rollback _, some q => lastRestored q.input q as
    | _, r => lastRestored start (r.getD p) as

section Restoring
variable {p q : Parse} {a : Action}

theorem buffer_act? (h : p.act? a = some q) (ha : ∀ m, a ≠ .rollback m) :
    q.input.buffer = p.input.buffer := by
  cases a with
  | eat c | eatAbsorbing c =>
    obtain ⟨i, hi, rfl⟩ := Option.map_eq_some_iff.mp h
    exact p.input.buffer_of_consume? hi
  | append e he | absorb e he | mark m =>
    obtain rfl := Option.some.inj h
    rfl
  | rollback m => exact absurd rfl (ha m)
  | commit m | commitRound | compact =>
    obtain ⟨r, -, rfl⟩ := Option.map_eq_some_iff.mp h
    rfl

theorem lastRestored_rollback {m : Marker} (h : p.act? (.rollback m) = some q) (start : Input)
    (as : List Action) :
    lastRestored start p (.rollback m :: as) = lastRestored q.input q as := by
  simp only [lastRestored, h]

theorem lastRestored_fail (h : p.act? a = none) (start : Input) (as : List Action) :
    lastRestored start p (a :: as) = lastRestored start p as := by
  cases a <;> simp only [lastRestored, h, Option.getD_none]

theorem lastRestored_other (h : p.act? a = some q) (ha : ∀ m, a ≠ .rollback m) (start : Input)
    (as : List Action) : lastRestored start p (a :: as) = lastRestored start q as := by
  cases a with
  | rollback m => exact absurd rfl (ha m)
  | _ => simp only [lastRestored, h, Option.getD_some]

/-- The buffer is the one that the last rollback left. -/
theorem buffer_run {start : Input} (hstart : p.input.buffer = start.buffer) (as : List Action) :
    (p.run as).input.buffer = (lastRestored start p as).buffer := by
  induction as generalizing p start with
  | nil => exact hstart
  | cons a as ih =>
    rw [run_cons]
    cases hact : p.act? a with
    | none =>
      rw [lastRestored_fail hact]
      exact ih hstart
    | some q =>
      by_cases ha : ∀ m, a ≠ .rollback m
      · rw [lastRestored_other hact ha]
        exact ih ((buffer_act? hact ha).trans hstart)
      · obtain ⟨m, rfl⟩ := not_forall_not.mp ha
        rw [lastRestored_rollback hact]
        exact ih rfl

theorem lastRestored_of_not_rollback {as : List Action} (has : ∀ m, .rollback m ∉ as)
    (start : Input) (p : Parse) : lastRestored start p as = start := by
  induction as generalizing p with
  | nil => rfl
  | cons a as ih =>
    have hlater := ih fun m hm => has m (List.mem_cons_of_mem a hm)
    have ha : ∀ m, a ≠ .rollback m := by
      rintro m rfl
      exact has m List.mem_cons_self
    cases hact : p.act? a with
    | none => rw [lastRestored_fail hact, hlater]
    | some q => rw [lastRestored_other hact ha, hlater]

end Restoring

/-- Of two runs from one parse that come to the same rest, the inputs join exactly if the last
rollbacks left one buffer, so always if there was no rollback. -/
theorem jointInput_run {p : Parse} {as bs : List Action}
    (hrest : (p.run as).input.rest = (p.run bs).input.rest) :
    jointInput [(p.run as).input, (p.run bs).input] =
      (if (p.lastRestored p.input as).buffer = (p.lastRestored p.input bs).buffer then
        .ok (p.run as).input
      else .error (.differentInputs (p.run as).input.render (p.run as).input.render)) ∧
    ((∀ m, .rollback m ∉ as) → (∀ m, .rollback m ∉ bs) →
      jointInput [(p.run as).input, (p.run bs).input] = .ok (p.run as).input) := by
  have hcomplete : (p.run as).input.complete = (p.run bs).input.complete :=
    (run_conserves_input p as).2.trans (run_conserves_input p bs).2.symm
  have hjoint := jointInput_pair hrest hcomplete
  rw [buffer_run rfl as, buffer_run rfl bs] at hjoint
  refine ⟨hjoint, fun has hbs => ?_⟩
  rw [hjoint, lastRestored_of_not_rollback has, lastRestored_of_not_rollback hbs, if_pos rfl]

end Parse

/-! ### One alternative tried from the start of the input, and one from within -/

namespace Retried

def start : Parse := ⟨∅, .ofString "ab"⟩

def straight : List Action := [.eat (.plain "a")]

def afresh : List Action :=
  [.mark .branch, .eat (.plain "ab"), .rollback .branch, .eat (.plain "a")]

def midway : List Action :=
  [.eat (.plain "a"), .mark .branch, .eat (.plain "b"), .rollback .branch]

end Retried

theorem Parse.jointInput_run_afresh :
    (Retried.start.run Retried.straight).input.rest =
        (Retried.start.run Retried.afresh).input.rest ∧
      jointInput [(Retried.start.run Retried.straight).input,
        (Retried.start.run Retried.afresh).input] = .ok ⟨"a", "b", true⟩ := by
  have hrest : (Retried.start.run Retried.straight).input.rest =
      (Retried.start.run Retried.afresh).input.rest := by decide
  have hbuffer : (Retried.start.lastRestored Retried.start.input Retried.straight).buffer =
      (Retried.start.lastRestored Retried.start.input Retried.afresh).buffer := by decide
  refine ⟨hrest, ?_⟩
  rw [(Parse.jointInput_run hrest).1, if_pos hbuffer]
  decide

/-- Branches at one rest do not join if one of them gave up an alternative on the way. -/
theorem Parse.exists_jointInput_midway :
    ∃ (p : Parse) (as bs : List Action),
      (p.run as).input.rest = (p.run bs).input.rest ∧
        (p.run as).input.complete = (p.run bs).input.complete ∧
        jointInput [(p.run as).input, (p.run bs).input] =
          .error (.differentInputs "\"b\"" "\"b\"") := by
  refine ⟨Retried.start, Retried.straight, Retried.midway, ?_⟩
  decide +kernel

end ParseLog
