import ParseLog.Forest.Node
import ParseLog.Proofs.Log.Tidying
/-!
# Compacting twice

The second compaction of a log moves the values that the first one took out of closed regions, and
the third changes nothing. If no closed region holds a value that can still be read, the second
already changes nothing.
-/

namespace ParseLog
set_option autoImplicit false

/-- Whether the node, if it is a value that can still be read, stands in open regions only. -/
def Node.IsExposed (n : Node) : Prop :=
  ∀ a, n.shape = .leaf (.value a) → n.isRelevant = true → ∀ frame ∈ n.outer, frame.right = none

theorem Tidy.append {es fs : List Event} (hfs : Tidy fs) (hes : ∀ x ∈ es, x.isValue = false)
    (hhead : ∀ x ∈ fs.head?, x.isValue = false) : Tidy (es ++ fs) := by
  induction es with
  | nil => exact hfs
  | cons e es ih =>
    have hes' : ∀ x ∈ es, x.isValue = false := fun x hx => hes x (List.mem_cons_of_mem e hx)
    refine List.isChain_cons.mpr ⟨fun x hx => ?_, ih hes'⟩
    exact Event.mayPrecede_of_not_value (not_value_head?_append hes' hhead x hx)

namespace Forest

section Exposed
variable {f : Forest} {outer : List Frame} {parent next : Nat} {siblings : List Nat}

/-- Within closed regions no value is kept if every live value stands outside them. -/
theorem not_value_of_exposed (hf : f.IsClosed)
    (hexposed : ∀ n ∈ f.nodes parent siblings outer next, n.IsExposed)
    (houter : ∃ frame ∈ outer, frame.right ≠ none) :
    ∀ x ∈ keptBody outer f, x.isValue = false := by
  induction hf generalizing outer parent next siblings with
  | nil => simp [keptBody, liveValues, sortByName]
  | @leaf e later _ _ ih =>
    intro x hx
    rcases mem_keptBody_leaf hx with hx | ⟨rfl, hlive⟩
    · exact ih (fun n hn => hexposed n (List.mem_cons_of_mem _ hn)) houter x hx
    · cases x with
      | value a =>
        obtain ⟨frame, hframe, hclosed⟩ := houter
        have hrelevant : isLive a.var later outer = true := hlive a.var (by
          simp [Event.sets, Value.isOf])
        exact absurd (hexposed _ List.mem_cons_self a rfl hrelevant frame hframe) hclosed
      | _ => rfl
  | @region left body later _ _ _ ihb ihl =>
    simp only [nodes, List.mem_cons, List.mem_append] at hexposed
    intro x hx
    rcases mem_keptBody_region.mp hx with ⟨hopen, -⟩ | hx | hx
    · cases hopen
    · refine ihb (fun n hn => hexposed n (.inr (.inl hn))) ?_ x hx
      exact ⟨_, List.mem_cons_self, Option.some_ne_none _⟩
    · exact ihl (fun n hn => hexposed n (.inr (.inr hn))) houter x hx

theorem tidy_keptEvents (hf : f.IsGrown)
    (hexposed : ∀ n ∈ f.nodes parent siblings outer next, n.IsExposed) :
    Tidy (keptEvents outer f) ∧ ∀ x ∈ (keptEvents outer f).head?, x.isValue = false := by
  induction f generalizing outer parent next siblings with
  | nil => exact ⟨.nil, by simp⟩
  | leaf e later ih =>
    cases hf with
    | leaf _ hlater =>
      obtain ⟨htidy, hhead⟩ := ih hlater fun n hn => hexposed n (List.mem_cons_of_mem _ hn)
      rw [keptEvents_leaf]
      split
      · exact ⟨htidy, hhead⟩
      · rename_i he
        have hplain : ∀ x ∈ [e], x.isValue = false := by simpa using he
        exact ⟨htidy.append hplain hhead, not_value_head?_append hplain hhead⟩
  | region left body right later ihb ihl =>
    simp only [nodes, List.mem_cons, List.mem_append] at hexposed
    have hinside := fun n hn => hexposed n (.inr (.inl hn))
    cases hf with
    | region _ hbody hlater =>
      obtain ⟨htidy, hhead⟩ := ihl hlater fun n hn => hexposed n (.inr (.inr hn))
      have hplain := not_value_of_exposed hbody hinside
        ⟨_, List.mem_cons_self, Option.some_ne_none _⟩
      rw [keptEvents_closed]
      exact ⟨htidy.append hplain hhead, not_value_head?_append hplain hhead⟩
    | opened _ hbody =>
      obtain ⟨htidy, hhead⟩ := ihb hbody hinside
      rw [keptEvents_opened]
      refine ⟨List.isChain_cons.mpr ⟨fun _ _ => rfl, tidy_sortByName _ htidy hhead⟩, ?_⟩
      simp [Event.isValue]

end Exposed

end Forest

namespace Log

theorem tidy_compact {l : Log} {f : Forest} (hf : l.forest = .ok f)
    (hexposed : ∀ n ∈ f.root.descendants, n.IsExposed) :
    Tidy (absorbAll ∅ f.compactEvents).toList := by
  obtain ⟨htidy, hhead⟩ := Forest.tidy_keptEvents (Forest.isGrown_ofEvents hf)
    fun n hn => hexposed n (List.mem_cons_of_mem _ hn)
  exact tidy_absorbAll (tidy_sortByName _ htidy hhead)

/-- A compact log compacts to the events with the values of each stretch between brackets in front of
the stretch, coalesced. So it compacts to itself exactly if they come first in it, and in any case once
they do. -/
theorem compact_compact {l : Log} {f : Forest} (hf : l.forest = .ok f) :
    ∃ c d, l.compact = .ok c ∧ c.compact = .ok d ∧
      Fronted c.toList (tidy c.toList) ∧ d = absorbAll ∅ (tidy c.toList) ∧
      (d = c ↔ Tidy c.toList) ∧ ((∀ n ∈ f.root.descendants, n.IsExposed) → d = c) ∧
      d.compact = .ok d := by
  have hc : l.compact = .ok (absorbAll ∅ f.compactEvents) := compact_eq_ok_iff.mpr ⟨f, hf, rfl⟩
  have hd := compact_of_compact hc
  have htidy : Tidy (absorbAll ∅ (tidy (absorbAll ∅ f.compactEvents).toList)).toList :=
    tidy_absorbAll (tidy_tidy _)
  have hsettled : Tidy (absorbAll ∅ f.compactEvents).toList →
      absorbAll ∅ (tidy (absorbAll ∅ f.compactEvents).toList) = absorbAll ∅ f.compactEvents :=
    fun h => Except.ok.inj (hd.symm.trans (compact_eq_self_of_tidy hc h))
  refine ⟨_, _, hc, hd, fronted_tidy _, rfl, ⟨?_, hsettled⟩, ?_, compact_eq_self_of_tidy hd htidy⟩
  · intro h
    rw [h] at htidy
    exact htidy
  · intro hexposed
    exact hsettled (tidy_compact hf hexposed)

end Log

/-! ### A value that comes out of a closed region behind a text -/

namespace Surfaced

def row : Bracket := ⟨.left, .boundary ⟨"Row", by decide +kernel⟩⟩

def text : Event := .chunk (.plain "a")

def value : Event := .value (.unchecked ⟨"width", by decide +kernel⟩ .int (.int 1))

def log : Log := Log.ofList [text, .bracket row, value, .bracket row.other]

def forest : Forest := .leaf text (.region row (.leaf value .nil) (some row.other) .nil)

end Surfaced

theorem Log.compact_compact_surfaced :
    Surfaced.log.forest = .ok Surfaced.forest ∧ ∃ c d, Surfaced.log.compact = .ok c ∧
      c.compact = .ok d ∧ Fronted c.toList (tidy c.toList) ∧ d = absorbAll ∅ (tidy c.toList) ∧
      ¬ Tidy c.toList ∧ d ≠ c ∧ d.compact = .ok d := by
  have hforest : Surfaced.log.forest = .ok Surfaced.forest := rfl
  obtain ⟨c, d, hc, hd, hfronted, heq, hsettled, -, hthird⟩ := Log.compact_compact hforest
  have hmoved : ¬ Tidy c.toList := by
    obtain rfl : ofList [Surfaced.text, Surfaced.value] = c := Except.ok.inj (by rw [← hc]; rfl)
    intro htidy
    cases (List.isChain_cons_cons.mp htidy).1
  exact ⟨hforest, c, d, hc, hd, hfronted, heq, hmoved, fun h => hmoved (hsettled.mp h), hthird⟩

theorem Log.exists_compact_compact_ne :
    ∃ c d, Surfaced.log.compact = .ok c ∧ c.compact = .ok d ∧ d ≠ c := by
  refine ⟨ofList [Surfaced.text, Surfaced.value], ofList [Surfaced.value, Surfaced.text], ?_⟩
  decide +kernel

end ParseLog
