import ParseLog.Proofs.Forest.Standing
import ParseLog.Proofs.Log.Tidying
/-!
# What compaction leaves in place

Apart from values and the sides of closed regions, a compact log has the events of the log in their
order, with chunks that meet joined. A value may move to the front of its body or out of a closed
region, but the regions around it that are still open stay the same.
-/

namespace ParseLog
set_option autoImplicit false

/-- The left brackets of the regions that are open. -/
def openAround (outer : List Frame) : List Bracket := (outer.filter (·.right.isNone)).map Frame.left

/-- The left brackets of the open regions around the node, the innermost first. -/
def Node.openAround (n : Node) : List Bracket := ParseLog.openAround n.outer

/-- The values among the events, each with the left brackets that are open there. -/
def homes (opened : List Bracket) : List Event → List (Value × List Bracket)
  | [] => []
  | .value a :: es => (a, opened) :: homes opened es
  | e :: es => homes (nest opened e) es

theorem homes_opened {left : Bracket} (hside : left.side = .left) (later : Forest)
    (outer : List Frame) (es : List Event) :
    homes (openAround outer) (.bracket left :: es) =
      homes (openAround (⟨left, none, later⟩ :: outer)) es := by
  have hopened : nest (openAround outer) (.bracket left) =
      openAround (⟨left, none, later⟩ :: outer) := by
    simp only [nest, hside]
    rfl
  rw [← hopened]
  rfl

theorem homes_append (opened : List Bracket) (es fs : List Event) :
    homes opened (es ++ fs) = homes opened es ++ homes (es.foldl nest opened) fs := by
  induction es generalizing opened with
  | nil => rfl
  | cons e es ih =>
    cases e with
    | value a => exact congrArg ((a, opened) :: ·) (ih opened)
    | _ => exact ih _

theorem homes_absorbAll (es : List Event) :
    ∀ p ∈ homes [] (Log.absorbAll ∅ es).toList, p ∈ homes [] es := by
  apply Log.absorbAll_induction (P := fun fs => ∀ p ∈ homes [] fs, p ∈ homes [] es)
  · intro before a b after h p hp
    apply h p
    rwa [homes_append] at hp ⊢
  · intro before a b after _ h p hp
    apply h p
    rw [homes_append, List.mem_append] at hp ⊢
    exact hp.imp_right fun hp => List.mem_cons_of_mem _ hp
  · exact fun p hp => hp

section NoBrackets
variable {es : List Event} (hes : ∀ x ∈ es, x.isBracket = false)
include hes

theorem foldl_nest_of_not_bracket (opened : List Bracket) : es.foldl nest opened = opened := by
  induction es with
  | nil => rfl
  | cons e es ih =>
    obtain ⟨he, hes⟩ := List.forall_mem_cons.mp hes
    have hnest : nest opened e = opened := by cases e <;> first | rfl | cases he
    rw [List.foldl_cons, hnest, ih hes]

theorem homes_append_of_not_bracket (opened : List Bracket) (fs : List Event) :
    homes opened (es ++ fs) = homes opened es ++ homes opened fs := by
  rw [homes_append, foldl_nest_of_not_bracket hes]

end NoBrackets

theorem homes_values (opened : List Bracket) (values : List Value) :
    homes opened (values.map .value) = values.map (·, opened) := by
  induction values with
  | nil => rfl
  | cons a values ih => exact congrArg ((a, opened) :: ·) ih

namespace Forest

variable {outer : List Frame} {opened : List Bracket} {a : Value} {os : List Bracket}

theorem mem_homes_keptBody {f : Forest} :
    (a, os) ∈ homes opened (keptBody outer f) ↔
      (a ∈ liveValues outer f ∧ os = opened) ∨ (a, os) ∈ homes opened (keptEvents outer f) := by
  have hvalues : ∀ x ∈ (sortByName (liveValues outer f)).map Event.value, x.isBracket = false := by
    intro x hx
    obtain ⟨a, -, rfl⟩ := List.mem_map.mp hx
    rfl
  rw [keptBody, homes_append_of_not_bracket hvalues, homes_values, List.mem_append, List.mem_map]
  simp only [(sortByName_perm _).mem_iff, Prod.mk.injEq, eq_comm (a := opened)]
  apply or_congr_left
  constructor
  · rintro ⟨b, hlive, rfl, hos⟩
    exact ⟨hlive, hos⟩
  · rintro ⟨hlive, hos⟩
    exact ⟨a, hlive, rfl, hos⟩

/-- A value kept of a leaf and what follows is that of the leaf, which is live, or follows. -/
theorem mem_homes_leaf {e : Event} {later : Forest} (he : e.isBracket = false)
    (h : (a, os) ∈ homes opened (keptBody outer (leaf e later))) :
    (e = .value a ∧ os = opened ∧ isLive a.var later outer = true) ∨
      (a, os) ∈ homes opened (keptBody outer later) := by
  rw [mem_homes_keptBody] at h ⊢
  cases e with
  | bracket b => cases he
  | value b =>
    rcases h with ⟨hlive, rfl⟩ | h
    · rw [liveValues] at hlive
      split at hlive
      · rename_i hb
        rcases List.mem_cons.mp hlive with rfl | hlive
        · exact .inl ⟨rfl, rfl, hb⟩
        · exact .inr (.inl ⟨hlive, rfl⟩)
      · exact .inr (.inl ⟨hlive, rfl⟩)
    · exact .inr (.inr h)
  | chunk c => exact .inr h
  | marker m => exact .inr h

theorem IsClosed.not_bracket_keptBody {f : Forest} (hf : f.IsClosed) (outer : List Frame) :
    ∀ x ∈ keptBody outer f, x.isBracket = false := by
  have hnone : (keptBody outer f).filter Event.isBracket = [] := by
    rw [filter_isBracket_keptBody, hf.isGrown.filter_isBracket_keptEvents, hf.lefts_eq_nil]
    rfl
  simpa [List.filter_eq_nil_iff] using hnone

/-- By induction on the forest: what is kept of closed regions has no brackets, and an open region is
the last of its siblings, so all the siblings' values have the same open regions around them. -/
theorem IsGrown.exists_home {f : Forest} (hf : f.IsGrown) {parent : Nat} {siblings : List Nat}
    {next : Nat} (h : (a, os) ∈ homes (openAround outer) (keptBody outer f)) :
    ∃ n ∈ f.nodes parent siblings outer next,
      n.shape = .leaf (.value a) ∧ n.isRelevant = true ∧ n.openAround = os := by
  induction f generalizing parent siblings outer next with
  | nil => cases h
  | leaf e later ih =>
    cases hf with
    | leaf hevent hlater =>
      rcases mem_homes_leaf hevent h with ⟨rfl, rfl, hlive⟩ | h
      · exact ⟨_, List.mem_cons_self, rfl, hlive, rfl⟩
      · obtain ⟨n, hn, hhome⟩ := ih hlater h
        exact ⟨n, List.mem_cons_of_mem _ hn, hhome⟩
  | region left body right later ihb ihl =>
    cases hf with
    | region hside hbody hlater =>
      rw [mem_homes_keptBody, keptEvents_closed,
        homes_append_of_not_bracket (hbody.not_bracket_keptBody _), List.mem_append,
        or_left_comm] at h
      rcases h with h | h
      · have hopened :
            openAround (⟨left, some left.other, later⟩ :: outer) = openAround outer := rfl
        rw [← hopened] at h
        obtain ⟨n, hn, hhome⟩ := ihb hbody.isGrown h
        exact ⟨n, List.mem_cons_of_mem _ (List.mem_append_left _ hn), hhome⟩
      · obtain ⟨n, hn, hhome⟩ := ihl hlater (mem_homes_keptBody.mpr h)
        exact ⟨n, List.mem_cons_of_mem _ (List.mem_append_right _ hn), hhome⟩
    | opened hside hbody =>
      have hkept : keptBody outer (.region left body none .nil) =
          .bracket left :: keptBody (⟨left, none, .nil⟩ :: outer) body :=
        keptEvents_opened outer left body
      rw [hkept, homes_opened hside] at h
      obtain ⟨n, hn, hhome⟩ := ihb hbody h
      exact ⟨n, List.mem_cons_of_mem _ (List.mem_append_left _ hn), hhome⟩

/-- Where no region is closed, the left brackets before a value are those around it. -/
theorem IsGrown.mem_homes {f : Forest} (hf : f.IsGrown)
    (hlefts : ∀ b, .bracket b ∈ f.events → b.side = .left) {parent : Nat} {siblings : List Nat}
    {next : Nat} {n : Node} (hn : n ∈ f.nodes parent siblings outer next)
    (hshape : n.shape = .leaf (.value a)) :
    (a, n.openAround) ∈ homes (openAround outer) f.events := by
  induction hf generalizing parent siblings outer next with
  | nil => cases hn
  | @leaf e later hevent _ ih =>
    have hlater : ∀ b, .bracket b ∈ later.events → b.side = .left :=
      fun b hb => hlefts b (List.mem_cons_of_mem e hb)
    rcases List.mem_cons.mp hn with rfl | hn
    · obtain rfl := Shape.leaf.inj hshape
      exact List.mem_cons_self
    · have hhome := ih hlater hn
      cases e with
      | bracket b => cases hevent
      | value b => exact List.mem_cons_of_mem _ hhome
      | chunk c => exact hhome
      | marker m => exact hhome
  | region hside => exact (not_right_of_events hside hlefts).elim
  | @opened left body hside _ ih =>
    have hevents : (Forest.region left body none .nil).events = .bracket left :: body.events := by
      simp [events]
    rw [hevents] at hlefts ⊢
    rcases List.mem_cons.mp hn with rfl | hn
    · cases hshape
    · rw [homes_opened hside]
      rcases List.mem_append.mp hn with hn | hn
      · exact ih (fun b hb => hlefts b (List.mem_cons_of_mem _ hb)) hn
      · cases hn

/-! ### Lengths -/

theorem length_keptBody (outer : List Frame) (f : Forest) :
    (keptBody outer f).length = (liveValues outer f).length + (keptEvents outer f).length := by
  rw [keptBody, List.length_append, List.length_map, (sortByName_perm _).length_eq]

theorem length_keptBody_le (outer : List Frame) (f : Forest) :
    (keptBody outer f).length ≤ f.events.length := by
  induction f generalizing outer with
  | nil => exact Nat.le_refl _
  | leaf e later ih =>
    have hlater := ih outer
    rw [length_keptBody] at hlater ⊢
    rw [keptEvents_leaf, events, List.length_cons]
    cases e with
    | value a =>
      rw [liveValues]
      split <;> simp [Event.isValue] <;> omega
    | _ => simp [Event.isValue, liveValues]; omega
  | region left body right later ihb ihl =>
    have hbody := ihb (⟨left, right, later⟩ :: outer)
    have hlater := ihl outer
    rw [length_keptBody] at hbody hlater ⊢
    have hlive : liveValues outer (region left body right later) = liveValues outer later := rfl
    rw [hlive, keptEvents_region]
    cases right <;> simp [events, (sortByName_perm _).length_eq] <;> omega

end Forest

theorem Log.length_absorbAll_le (es : List Event) : (absorbAll ∅ es).length ≤ es.length := by
  have hlength : (absorbAll ∅ es).toList.length ≤ es.length := by
    apply absorbAll_induction (P := fun fs => fs.length ≤ es.length)
    · intro before a b after h
      simp only [List.length_append, List.length_cons] at h ⊢
      omega
    · intro before a b after _ h
      simp only [List.length_append, List.length_cons] at h ⊢
      omega
    · exact Nat.le_refl _
  rwa [toList, List.length_reverse] at hlength

/-- Without values, and with adjacent chunks concatenated, a compact log is the log without the sides
of its closed regions. It has no right brackets and is not longer than the log. Each of its values is
a relevant value of the log and lies within the same open regions. -/
theorem Log.compact_remaining {l : Log} {f : Forest} (hf : l.forest = .ok f) :
    ∃ c g, l.compact = .ok c ∧ c.forest = .ok g ∧
      joinChunks (dropValues c.toList) = joinChunks (dropValues (unpaired l.toList)) ∧
      (∀ b, .bracket b ∈ c.toList → b.side = .left) ∧
      (∀ n ∈ g.root.descendants, ∀ a, n.shape = .leaf (.value a) →
        ∃ m ∈ f.root.descendants, m.shape = .leaf (.value a) ∧ m.isRelevant = true ∧
          m.openAround = n.openAround) ∧
      c.length ≤ l.length := by
  have hgrown := Forest.isGrown_ofEvents hf
  have hevents : f.events = l.toList := Forest.events_ofEvents hf
  have hc : l.compact = .ok (absorbAll ∅ f.compactEvents) := compact_eq_ok_iff.mpr ⟨f, hf, rfl⟩
  obtain ⟨g, hg, -⟩ := forest_of_wellBracketed (openLefts_compact hc).1
  have hlefts : ∀ b, .bracket b ∈ (absorbAll ∅ f.compactEvents).toList → b.side = .left :=
    fun b hb => side_of_mem_compact hc hb
  refine ⟨_, g, hc, hg, ?_, hlefts, ?_, ?_⟩
  · rw [joinChunks_absorbAll, Forest.compactEvents, dropValues_append, dropValues_values,
      Forest.dropValues_keptEvents, List.nil_append, ← hevents, hgrown.unpaired_events]
  · intro n hn a hshape
    rcases List.mem_cons.mp hn with rfl | hn
    · cases hshape
    have hgevents : g.events = _ := Forest.events_ofEvents hg
    have hhome : (a, n.openAround) ∈ homes [] g.events :=
      (Forest.isGrown_ofEvents hg).mem_homes (hgevents ▸ hlefts) hn hshape
    rw [hgevents] at hhome
    have hkept : (a, n.openAround) ∈ homes (openAround []) (Forest.keptBody [] f) :=
      homes_absorbAll _ _ hhome
    obtain ⟨m, hm, hshape', hrelevant, hopen⟩ := hgrown.exists_home hkept
    exact ⟨m, List.mem_cons_of_mem _ hm, hshape', hrelevant, hopen⟩
  · have hkept := Forest.length_keptBody_le [] f
    have hlength : f.events.length = l.length := by rw [hevents, toList, List.length_reverse, length]
    rw [← Forest.compactEvents_eq, hlength] at hkept
    exact (length_absorbAll_le _).trans hkept

/-! ### A closed block within an open scope -/

namespace Gathered

def locale : Variable := ⟨⟨"locale", by decide +kernel⟩, .single .text⟩

def height : Variable := ⟨⟨"height", by decide +kernel⟩, .single .text⟩

def english : Value := .unchecked locale.name .text (.text "en")

def large : Value := .unchecked height.name .text (.text "12")

def scope : Bracket := ⟨.left, .scope locale⟩

def block : Bracket := ⟨.left, .boundary ⟨"block", by decide +kernel⟩⟩

def text (s : String) : Event := .chunk (.plain s)

def log : Log :=
  Log.ofList [.bracket scope, text "a", .bracket block, text "b", .value english, text "c",
    .bracket block.other, .marker .loop, .value large]

def forest : Forest :=
  .region scope (.leaf (text "a") (.region block
    (.leaf (text "b") (.leaf (.value english) (.leaf (text "c") .nil))) (some block.other)
    (.leaf (.marker .loop) (.leaf (.value large) .nil)))) none .nil

def compact : Log :=
  Log.ofList [.bracket scope, .value large, text "a", .value english, text "bc", .marker .loop]

def remaining : List Event := [.bracket scope, text "abc", .marker .loop]

end Gathered

theorem Log.compact_remaining_block :
    Gathered.log.forest = .ok Gathered.forest ∧ Gathered.log.compact = .ok Gathered.compact ∧
      joinChunks (dropValues (unpaired Gathered.log.toList)) = Gathered.remaining ∧
      joinChunks (dropValues Gathered.compact.toList) = Gathered.remaining ∧
      ∃ m ∈ Gathered.forest.root.descendants, m.shape = .leaf (.value Gathered.english) ∧
        m.isRelevant = true ∧ m.openAround = [Gathered.scope] := by
  have hforest : Gathered.log.forest = .ok Gathered.forest := rfl
  have hremaining : joinChunks (dropValues (unpaired Gathered.log.toList)) = Gathered.remaining := rfl
  obtain ⟨c, g, hc, hg, htext, -, hvalues, -⟩ := Log.compact_remaining hforest
  obtain rfl : c = Gathered.compact := Except.ok.inj (hc.symm.trans rfl)
  rw [show g = _ from (Except.ok.inj (hg.symm.trans rfl))] at hvalues
  exact ⟨hforest, hc, hremaining, htext.trans hremaining,
    hvalues _ (List.mem_of_getElem? (i := 4) rfl) _ rfl⟩

end ParseLog
