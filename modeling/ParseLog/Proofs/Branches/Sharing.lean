import ParseLog.Proofs.Branches.Alignment
import ParseLog.Proofs.Branches.Joint
import ParseLog.Proofs.Log.SingleValued
/-!
# What all branches know

A symbol is in a value of a multi-variable on the joint log only if every branch has it. The value
is taken from what is in front of the branches at one turn, and a compact branch has no other value
of the variable, so the joint value is the intersection over all branches or empty.
-/

namespace ParseLog
set_option autoImplicit false

/-- Whether a value of `v` among the events holds `s`. -/
def Holds (v : Variable) (s : Symbol) (es : List Event) : Prop :=
  ∃ (b : Value) (own : SortedSet Symbol),
    .value b ∈ es ∧ b.var = v ∧ b.datum = .symbols own ∧ s ∈ own

theorem holds_of_inFront {v : Variable} (hv : v.isMulti = true) {s : Symbol} {es : List Event}
    (h : Value.InFront v s es.head?) : Holds v s es := by
  obtain ⟨b, hhead, rfl, hs⟩ := h
  exact ⟨b, b.symbols, List.mem_of_head? hhead, rfl, Value.datum_eq_symbols hv, hs⟩

namespace Pending

theorem dropFront_suffix (taken : Event → Bool) (es : List Event) : dropFront taken es <:+ es := by
  unfold dropFront
  split
  · exact List.suffix_rfl
  · split
    · exact List.suffix_cons _ _
    · exact List.suffix_rfl

/-- A turn that takes a value of a multi-variable takes what all branches have in front. -/
theorem mem_symbols_of_turn {p q : Pending} {m : Value} (h : p.Turn (.value m) q)
    (hmulti : m.var.isMulti = true) (s : Symbol) :
    s ∈ m.symbols ↔ ∀ es ∈ p, Value.InFront m.var s es.head? := by
  cases h with
  | meet _ _ symbols => rw [symbols, fronts, List.forall_mem_map]
  | share _ rigid =>
    have hsingle := (Event.isRigid_iff.mp rigid).2 m rfl
    cases hmulti.symm.trans hsingle

/-- A value that a merge takes is what is in front of the branches at some turn. -/
theorem mem_symbols_of_run {p : Pending} {fs : List Event} (h : p.Run fs) {m : Value}
    (hm : .value m ∈ fs) (hmulti : m.var.isMulti = true) :
    ∃ rest : List Event → List Event, (∀ es, rest es <:+ es) ∧
      ∀ s, s ∈ m.symbols ↔ ∀ es ∈ p, Value.InFront m.var s (rest es).head? := by
  -- `rest` drops from each branch what the turns before took off it.
  induction h with
  | done => cases hm
  | @turn p q e fs hstep _ ih =>
    have hturn := turn_of_step hstep
    rcases List.mem_cons.mp hm with rfl | hm'
    · exact ⟨id, fun _ => List.suffix_rfl, mem_symbols_of_turn hturn hmulti⟩
    · obtain ⟨taken, rfl⟩ := hturn.eq_advance
      obtain ⟨rest, hrest, hsymbols⟩ := ih hm'
      refine ⟨fun es => rest (dropFront taken es), ?_, ?_⟩
      · intro es
        exact (hrest _).trans (dropFront_suffix taken es)
      · intro s
        rw [hsymbols, advance, List.forall_mem_map]

section Runs
variable {p : Pending} {fs : List Event} (h : p.Run fs) {m : Value} (hm : .value m ∈ fs)
  (hmulti : m.var.isMulti = true)
include h hm hmulti

theorem holds_of_run {s : Symbol} (hs : s ∈ m.symbols) : ∀ es ∈ p, Holds m.var s es := by
  obtain ⟨rest, hrest, hsymbols⟩ := mem_symbols_of_run h hm hmulti
  intro es hes
  obtain ⟨b, own, hb, hvar, hown, hs'⟩ := holds_of_inFront hmulti ((hsymbols s).mp hs es hes)
  exact ⟨b, own, (hrest es).subset hb, hvar, hown, hs'⟩

/-- Unless it is empty, the value taken has all that the branches share. -/
theorem mem_symbols_of_holds (hp : ∀ es ∈ p, SingleValued es) {known : Symbol}
    (hknown : known ∈ m.symbols) {s : Symbol} (hs : ∀ es ∈ p, Holds m.var s es) :
    s ∈ m.symbols := by
  obtain ⟨rest, hrest, hsymbols⟩ := mem_symbols_of_run h hm hmulti
  apply (hsymbols s).mpr
  intro es hes
  obtain ⟨a, hhead, ha, -⟩ := (hsymbols known).mp hknown es hes
  obtain ⟨b, own, hb, hvar, hown, hmem⟩ := hs es hes
  have hfront : .value a ∈ es := (hrest es).subset (List.mem_of_head? hhead)
  obtain rfl : a = b := (hp es hes).eq_of_var_eq hfront hb (ha.trans hvar.symm)
  refine ⟨a, hhead, ha, ?_⟩
  have hdatum := Value.datum_eq_symbols (a := a) (ha ▸ hmulti)
  rw [hown] at hdatum
  rw [← Datum.symbols.inj hdatum]
  exact hmem

end Runs

end Pending

theorem SortedSet.eq_empty {t : SortedSet Symbol} (h : ∀ s, s ∉ t) : t = ∅ := by
  apply SortedSet.ext_mem
  intro s
  constructor
  · exact fun hs => absurd hs (h s)
  · exact fun hs => absurd hs (SortedSet.not_mem_empty s)

theorem not_holds_of_not_sets {v : Variable} {s : Symbol} {es : List Event}
    (h : ∀ e ∈ es, e.sets v = false) : ¬ Holds v s es := by
  rintro ⟨b, own, hb, hvar, -, -⟩
  have hsets := h _ hb
  simp [Event.sets, Value.isOf, hvar] at hsets

/-- A value of a multi-variable on the joint log holds only what every branch knows of the variable,
so nothing if a branch has no value of it. It is the whole intersection or empty. -/
theorem jointLog_shares_symbols {logs : List Log} {c : Log} (hjoin : jointLog logs = .ok c)
    {m : Value} (hm : .value m ∈ c.toList) (hmulti : m.var.isMulti = true) :
    ∃ joint : SortedSet Symbol, m.datum = .symbols joint ∧
      (∀ l ∈ logs, ∃ c', l.compact = .ok c' ∧ (∀ s ∈ joint, Holds m.var s c'.toList) ∧
        ((∀ e ∈ c'.toList, e.sets m.var = false) → m.datum = .symbols ∅)) ∧
      (joint = ∅ ∨ ∀ s, s ∈ joint ↔ ∀ l ∈ logs, ∃ c', l.compact = .ok c' ∧
        Holds m.var s c'.toList) := by
  obtain ⟨-, cs, fs, hcs, hrun, rfl⟩ := jointLog_eq_ok_iff.mp hjoin
  rw [Log.toList_ofList] at hm
  have hdatum := Value.datum_eq_symbols hmulti
  have hholds : ∀ l ∈ logs, ∃ c', l.compact = .ok c' ∧ ∀ s ∈ m.symbols, Holds m.var s c'.toList := by
    intro l hl
    obtain ⟨c', hc', hcompact⟩ := compact_mem hcs hl
    refine ⟨c', hcompact, fun s hs => ?_⟩
    exact Pending.holds_of_run hrun hm hmulti hs _ (List.mem_map_of_mem hc')
  refine ⟨m.symbols, hdatum, ?_, ?_⟩
  · intro l hl
    obtain ⟨c', hcompact, hc'⟩ := hholds l hl
    refine ⟨c', hcompact, hc', fun hunset => ?_⟩
    rw [hdatum, SortedSet.eq_empty fun s hs => not_holds_of_not_sets hunset (hc' s hs)]
  · by_cases hempty : m.symbols = ∅
    · exact .inl hempty
    · obtain ⟨known, hknown⟩ : ∃ known, known ∈ m.symbols := by
        by_contra hnone
        exact hempty (SortedSet.eq_empty (not_exists.mp hnone))
      have hsingle : ∀ es ∈ cs.map Log.toList, SingleValued es := by
        intro es hes
        obtain ⟨c', hc', rfl⟩ := List.mem_map.mp hes
        obtain ⟨l, -, hcompact⟩ := mem_of_compact hcs hc'
        exact Log.singleValued_compact hcompact
      refine .inr fun s => ⟨fun hs l hl => ?_, fun hs => ?_⟩
      · obtain ⟨c', hcompact, hc'⟩ := hholds l hl
        exact ⟨c', hcompact, hc' s hs⟩
      · apply Pending.mem_symbols_of_holds hrun hm hmulti hsingle hknown
        intro es hes
        obtain ⟨c', hc', rfl⟩ := List.mem_map.mp hes
        obtain ⟨l, hl, hcompact⟩ := mem_of_compact hcs hc'
        obtain ⟨c'', hcompact', hknows⟩ := hs l hl
        obtain rfl := Except.ok.inj (hcompact.symm.trans hcompact')
        exact hknows

/-! ### Branches that know different things of a variable -/

namespace Knowing

def script : Symbol := ⟨Unaligned.context, 1, "Script"⟩

def style : Symbol := ⟨Unaligned.context, 2, "Style"⟩

def url : Symbol := ⟨Unaligned.context, 3, "Url"⟩

def value (symbols : List Symbol) : Value :=
  ⟨Unaligned.url.var, .symbols (SortedSet.ofList symbols), fun _ => rfl⟩

def log (symbols : List Symbol) : Log :=
  Log.ofList [.bracket Unaligned.tag, .value (value symbols)]

def branches : List Log := [log [style, url], log [script, style]]

end Knowing

open Knowing in
theorem jointLog_shares_style :
    jointLog branches = .ok (log [style]) ∧ .value (value [style]) ∈ (log [style]).toList ∧
      (value [style]).var.isMulti = true ∧
      ∃ joint : SortedSet Symbol, (value [style]).datum = .symbols joint ∧
        (∀ l ∈ branches, ∃ c', l.compact = .ok c' ∧
          (∀ s ∈ joint, Holds (value [style]).var s c'.toList) ∧
          ((∀ e ∈ c'.toList, e.sets (value [style]).var = false) → (value [style]).datum = .symbols ∅)) ∧
        (joint = ∅ ∨ ∀ s, s ∈ joint ↔ ∀ l ∈ branches, ∃ c', l.compact = .ok c' ∧
          Holds (value [style]).var s c'.toList) := by
  have hjoin : jointLog branches = .ok (log [style]) := by decide +kernel
  have hm : .value (value [style]) ∈ (log [style]).toList := by decide +kernel
  exact ⟨hjoin, hm, rfl, jointLog_shares_symbols hjoin hm rfl⟩

end ParseLog
