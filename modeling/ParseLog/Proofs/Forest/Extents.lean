import ParseLog.Proofs.Forest.Outside
/-!
# Extents of regions

A region extends in the log from its left bracket to its right one, or to the head while it is open.
The events outside the closed scopes of a forest are those that no closed scope covers.
-/

namespace ParseLog
set_option autoImplicit false

/-- Where the brackets of a region stand in the log; an open region has no right one. -/
structure Extent where
  left : Bracket
  start : Nat
  stop : Option Nat
  deriving DecidableEq

namespace Extent

/-- Whether the region is closed and the place lies in it, brackets included. -/
def covers (r : Extent) (place : Nat) : Bool :=
  r.stop.any fun stop => r.start ≤ place && place ≤ stop

/-- Whether the brackets of the region are among the events, each with its place. -/
structure Placed (es : List (Event × Nat)) (r : Extent) : Prop where
  side : r.left.side = .left
  start : (.bracket r.left, r.start) ∈ es
  stop : ∀ stop, r.stop = some stop → r.start < stop ∧ (.bracket r.left.other, stop) ∈ es

section Covers
variable {r : Extent} {place stop : Nat}

theorem covers_iff :
    r.covers place = true ↔ ∃ stop, r.stop = some stop ∧ r.start ≤ place ∧ place ≤ stop := by
  simp [covers, Option.any_eq_true]

theorem covers_of_open (h : r.stop = none) : r.covers place = false := by
  rw [covers, h, Option.any_none]

theorem covers_before (h : place < r.start) : r.covers place = false := by
  apply Bool.eq_false_iff.mpr
  intro hcovers
  obtain ⟨stop, -, hstart, -⟩ := covers_iff.mp hcovers
  omega

theorem covers_after (h : ∀ stop, r.stop = some stop → stop < place) : r.covers place = false := by
  apply Bool.eq_false_iff.mpr
  intro hcovers
  obtain ⟨stop, hstop, -, hle⟩ := covers_iff.mp hcovers
  have hlt := h stop hstop
  omega

end Covers

section Placed
variable {r : Extent} {es fs : List (Event × Nat)}

theorem Placed.mono (h : r.Placed es) (hsub : es ⊆ fs) : r.Placed fs :=
  ⟨h.side, hsub h.start, fun stop hstop => ⟨(h.stop stop hstop).1, hsub (h.stop stop hstop).2⟩⟩

variable {events : List Event} {start : Nat}

theorem Placed.le_start (h : r.Placed (events.zipIdx start)) : start ≤ r.start :=
  List.le_snd_of_mem_zipIdx h.start

theorem Placed.stop_lt (h : r.Placed (events.zipIdx start)) :
    ∀ stop, r.stop = some stop → stop < start + events.length :=
  fun stop hstop => List.snd_lt_add_of_mem_zipIdx (h.stop stop hstop).2

end Placed

end Extent

namespace Forest

/-- The regions of a forest whose first event stands at `place`. -/
def extents (place : Nat) : Forest → List Extent
  | nil => []
  | leaf _ later => later.extents (place + 1)
  | region left body right later =>
    ⟨left, place, right.map fun _ => place + 1 + body.events.length⟩ ::
      (body.extents (place + 1) ++
        later.extents (place + 1 + body.events.length + right.toList.length))

section Places
variable {start : Nat} {left right : Bracket} {body later : Forest} {r : Extent} {x : Event × Nat}

theorem placed_region : (region left body (some right) later).events.zipIdx start =
    (.bracket left, start) :: (body.events.zipIdx (start + 1) ++
      (.bracket right, start + 1 + body.events.length) ::
        later.events.zipIdx (start + 1 + body.events.length + 1)) := by
  simp [events, List.zipIdx_append]

theorem placed_opened : (region left body none nil).events.zipIdx start =
    (.bracket left, start) :: body.events.zipIdx (start + 1) := by
  simp [events]

theorem mem_extents_region : r ∈ (region left body (some right) later).extents start ↔
    r = ⟨left, start, some (start + 1 + body.events.length)⟩ ∨ r ∈ body.extents (start + 1) ∨
      r ∈ later.extents (start + 1 + body.events.length + 1) := by
  simp [extents]

theorem mem_extents_opened : r ∈ (region left body none nil).extents start ↔
    r = ⟨left, start, none⟩ ∨ r ∈ body.extents (start + 1) := by
  simp [extents]

end Places

variable {f : Forest} {start : Nat} {r s : Extent}

/-- The brackets of a region stand at its ends. -/
theorem placed_of_mem_extents (hf : f.IsGrown) (hr : r ∈ f.extents start) :
    r.Placed (f.events.zipIdx start) := by
  induction f generalizing start with
  | nil => cases hr
  | leaf e later ih =>
    cases hf with
    | leaf _ hlater => exact (ih hlater hr).mono (List.subset_cons_self _ _)
  | region left body right later ihb ihl =>
    cases hf with
    | region hside hbody hlater =>
      rw [placed_region]
      rcases mem_extents_region.mp hr with rfl | hr | hr
      · refine ⟨hside, .head _, fun stop hstop => ?_⟩
        obtain rfl := Option.some.inj hstop
        exact ⟨by simp only; omega, by simp⟩
      · exact (ihb hbody.isGrown hr).mono
          (List.subset_cons_of_subset _ (List.subset_append_left _ _))
      · exact (ihl hlater hr).mono (List.subset_cons_of_subset _
          (List.subset_append_of_subset_right _ (List.subset_cons_self _ _)))
    | opened hside hbody =>
      rw [placed_opened]
      rcases mem_extents_opened.mp hr with rfl | hr
      · exact ⟨hside, .head _, nofun⟩
      · exact (ihb hbody hr).mono (List.subset_cons_self _ _)

/-- Every left bracket starts a region. -/
theorem exists_extent_of_left (hf : f.IsGrown) {b : Bracket} (hb : b.side = .left) {place : Nat}
    (h : (.bracket b, place) ∈ f.events.zipIdx start) :
    ∃ r ∈ f.extents start, r.left = b ∧ r.start = place := by
  induction f generalizing start with
  | nil => cases h
  | leaf e later ih =>
    cases hf with
    | leaf hevent hlater =>
      rcases List.mem_cons.mp h with heq | h
      · cases heq
        cases hevent
      · exact ih hlater h
  | region left body right later ihb ihl =>
    cases hf with
    | region hside hbody hlater =>
      rw [placed_region, List.mem_cons, List.mem_append, List.mem_cons] at h
      rcases h with heq | h | heq | h
      · cases heq
        exact ⟨_, mem_extents_region.mpr (.inl rfl), rfl, rfl⟩
      · obtain ⟨r, hr, hstart⟩ := ihb hbody.isGrown h
        exact ⟨r, mem_extents_region.mpr (.inr (.inl hr)), hstart⟩
      · cases heq
        cases hb.symm.trans (side_other hside)
      · obtain ⟨r, hr, hstart⟩ := ihl hlater h
        exact ⟨r, mem_extents_region.mpr (.inr (.inr hr)), hstart⟩
    | opened hside hbody =>
      rw [placed_opened, List.mem_cons] at h
      rcases h with heq | h
      · cases heq
        exact ⟨_, mem_extents_opened.mpr (.inl rfl), rfl, rfl⟩
      · obtain ⟨r, hr, hstart⟩ := ihb hbody h
        exact ⟨r, mem_extents_opened.mpr (.inr hr), hstart⟩

theorem IsClosed.stop_ne_none (hf : f.IsClosed) (hr : r ∈ f.extents start) : r.stop ≠ none := by
  induction hf generalizing start with
  | nil => cases hr
  | leaf _ _ ih => exact ih hr
  | region _ _ _ ihb ihl =>
    rcases mem_extents_region.mp hr with rfl | hr | hr
    · exact Option.some_ne_none _
    · exact ihb hr
    · exact ihl hr

/-- No open region starts in a closed one. -/
theorem covers_start_of_open (hf : f.IsGrown) (hr : r ∈ f.extents start) (hopen : r.stop = none)
    (hs : s ∈ f.extents start) : s.covers r.start = false := by
  induction f generalizing start with
  | nil => cases hr
  | leaf e later ih =>
    cases hf with
    | leaf _ hlater => exact ih hlater hr hs
  | region left body right later ihb ihl =>
    cases hf with
    | region _ hbody hlater =>
      rcases mem_extents_region.mp hr with rfl | hr | hr
      · cases hopen
      · exact absurd hopen (hbody.stop_ne_none hr)
      -- The open region lies after the closed one.
      · have hstart := (placed_of_mem_extents hlater hr).le_start
        rcases mem_extents_region.mp hs with rfl | hs | hs
        · apply Extent.covers_after
          intro stop hstop
          obtain rfl := Option.some.inj hstop
          omega
        · apply Extent.covers_after
          intro stop hstop
          have hlt := (placed_of_mem_extents hbody.isGrown hs).stop_lt stop hstop
          omega
        · exact ihl hlater hr hs
    | opened _ hbody =>
      rcases mem_extents_opened.mp hs with rfl | hs
      · exact Extent.covers_of_open rfl
      · rcases mem_extents_opened.mp hr with rfl | hr
        · have hstart := (placed_of_mem_extents hbody hs).le_start
          exact Extent.covers_before hstart
        · exact ihb hbody hr hs

end Forest

/-- Whether a closed scope among the regions covers the place. -/
def isCovered (delimits : Bracket → Bool) (regions : List Extent) (place : Nat) : Bool :=
  regions.any fun r => delimits r.left && r.covers place

/-- The events that no closed scope of the forest covers, with their places. -/
def Forest.uncovered (delimits : Bracket → Bool) (start : Nat) (f : Forest) : List (Event × Nat) :=
  (f.events.zipIdx start).filter fun x => !isCovered delimits (f.extents start) x.2

section Covered
variable {delimits : Bracket → Bool} {rs ss : List Extent} {place start : Nat} {f : Forest}

theorem isCovered_eq_false_iff : isCovered delimits rs place = false ↔
    ∀ r ∈ rs, delimits r.left = true → r.covers place = false := by
  simp [isCovered]

theorem isCovered_cons (r : Extent) : isCovered delimits (r :: rs) place =
    (delimits r.left && r.covers place || isCovered delimits rs place) := rfl

theorem isCovered_append : isCovered delimits (rs ++ ss) place =
    (isCovered delimits rs place || isCovered delimits ss place) := List.any_append

theorem isCovered_before (hf : f.IsGrown) (h : place < start) :
    isCovered delimits (f.extents start) place = false := by
  refine isCovered_eq_false_iff.mpr fun r hr _ => Extent.covers_before ?_
  have hle := (Forest.placed_of_mem_extents hf hr).le_start
  omega

theorem isCovered_after (hf : f.IsGrown) (h : start + f.events.length ≤ place) :
    isCovered delimits (f.extents start) place = false := by
  refine isCovered_eq_false_iff.mpr fun r hr _ => Extent.covers_after fun stop hstop => ?_
  have hlt := (Forest.placed_of_mem_extents hf hr).stop_lt stop hstop
  omega

namespace Forest

theorem filter_placed (h : ∀ place, start ≤ place → place < start + f.events.length →
      isCovered delimits rs place = isCovered delimits (f.extents start) place) :
    (f.events.zipIdx start).filter (fun x => !isCovered delimits rs x.2) =
      f.uncovered delimits start := by
  refine List.filter_congr fun x hx => ?_
  rw [h x.2 (List.le_snd_of_mem_zipIdx hx) (List.snd_lt_add_of_mem_zipIdx hx)]

section Nodes
variable {left : Bracket} {body later : Forest}

theorem isCovered_opened :
    isCovered delimits ((region left body none nil).extents start) place =
      isCovered delimits (body.extents (start + 1)) place := by
  simp [extents, isCovered_cons, Extent.covers_of_open]

theorem isCovered_region (right : Bracket) :
    isCovered delimits ((region left body (some right) later).extents start) place =
      (delimits left && (start ≤ place && place ≤ start + 1 + body.events.length) ||
        (isCovered delimits (body.extents (start + 1)) place ||
          isCovered delimits (later.extents (start + 1 + body.events.length + 1)) place)) := by
  rw [extents, isCovered_cons, isCovered_append]
  rfl

theorem uncovered_leaf (e : Event) (hlater : later.IsGrown) :
    (leaf e later).uncovered delimits start =
      (e, start) :: later.uncovered delimits (start + 1) := by
  have hstart : isCovered delimits (later.extents (start + 1)) start = false :=
    isCovered_before hlater (Nat.lt_succ_self start)
  exact List.filter_cons_of_pos (by simp [extents, hstart])

theorem uncovered_opened (hbody : body.IsGrown) :
    (region left body none nil).uncovered delimits start =
      (.bracket left, start) :: body.uncovered delimits (start + 1) := by
  have hstart : isCovered delimits (body.extents (start + 1)) start = false :=
    isCovered_before hbody (Nat.lt_succ_self start)
  rw [uncovered, placed_opened, List.filter_cons_of_pos (by simp [isCovered_opened, hstart]),
    filter_placed fun _ _ _ => isCovered_opened]

section Region
variable (right : Bracket) (hbody : body.IsClosed)
include hbody

theorem uncovered_scope (hleft : delimits left = true) :
    (region left body (some right) later).uncovered delimits start =
      later.uncovered delimits (start + 1 + body.events.length + 1) := by
  have hinside : ∀ place, start ≤ place → place ≤ start + 1 + body.events.length →
      isCovered delimits ((region left body (some right) later).extents start) place = true := by
    intro place hstart hstop
    simp [isCovered_region, hleft, hstart, hstop]
  rw [uncovered, placed_region, List.filter_cons_of_neg, List.filter_append,
    List.filter_eq_nil_iff.mpr, List.nil_append, List.filter_cons_of_neg, filter_placed]
  · intro place hstart _
    have hbefore : isCovered delimits (body.extents (start + 1)) place = false :=
      isCovered_after hbody.isGrown (by omega)
    have hnot : ¬ place ≤ start + 1 + body.events.length := by omega
    simp [isCovered_region, hbefore, hnot]
  · simp [hinside (start + 1 + body.events.length) (by omega) (Nat.le_refl _)]
  · intro x hx
    have hle := List.le_snd_of_mem_zipIdx hx
    have hlt := List.snd_lt_add_of_mem_zipIdx hx
    simp [hinside x.2 (by omega) (by omega)]
  · simp [hinside start (Nat.le_refl _) (by omega)]

theorem uncovered_region (hlater : later.IsGrown) (hleft : delimits left = false) :
    (region left body (some right) later).uncovered delimits start =
      (.bracket left, start) :: (body.uncovered delimits (start + 1) ++
        (.bracket right, start + 1 + body.events.length) ::
          later.uncovered delimits (start + 1 + body.events.length + 1)) := by
  have hcovered : ∀ place,
      isCovered delimits ((region left body (some right) later).extents start) place =
        (isCovered delimits (body.extents (start + 1)) place ||
          isCovered delimits (later.extents (start + 1 + body.events.length + 1)) place) := by
    intro place
    rw [isCovered_region, hleft, Bool.false_and, Bool.false_or]
  have hnotbody : ∀ place, place < start + 1 ∨ start + 1 + body.events.length ≤ place →
      isCovered delimits (body.extents (start + 1)) place = false := by
    intro place hplace
    rcases hplace with hplace | hplace
    · exact isCovered_before hbody.isGrown hplace
    · exact isCovered_after hbody.isGrown hplace
  have hnotlater : ∀ place, place < start + 1 + body.events.length + 1 →
      isCovered delimits (later.extents (start + 1 + body.events.length + 1)) place = false :=
    fun place hplace => isCovered_before hlater hplace
  rw [uncovered, placed_region, List.filter_cons_of_pos, List.filter_append, filter_placed,
    List.filter_cons_of_pos, filter_placed]
  · intro place hstart _
    rw [hcovered, hnotbody place (.inr (by omega)), Bool.false_or]
  · rw [hcovered, hnotbody _ (.inr (by simp only; omega)), hnotlater _ (by simp only; omega)]
    rfl
  · intro place _ hstop
    rw [hcovered, hnotlater place (by omega), Bool.or_false]
  · rw [hcovered, hnotbody _ (.inl (by simp only; omega)), hnotlater _ (by simp only; omega)]
    rfl

end Region

end Nodes

/-- What lies outside the closed scopes is what none of them covers. -/
theorem map_fst_uncovered (hf : f.IsGrown) :
    (f.uncovered delimits start).map Prod.fst = f.outside delimits := by
  induction f generalizing start with
  | nil => rfl
  | leaf e later ih =>
    cases hf with
    | leaf _ hlater => rw [uncovered_leaf e hlater, List.map_cons, ih hlater, outside]
  | region left body right later ihb ihl =>
    cases hf with
    | region _ hbody hlater =>
      by_cases hleft : delimits left = true
      · rw [uncovered_scope _ hbody hleft, outside_scope hleft, ihl hlater]
      · have hleft' : delimits left = false := by simpa using hleft
        rw [uncovered_region _ hbody hlater hleft', outside_region hleft', List.map_cons,
          List.map_append, List.map_cons, ihb hbody.isGrown, ihl hlater]
    | opened _ hbody => rw [uncovered_opened hbody, outside_opened, List.map_cons, ihb hbody]

end Forest

end Covered

end ParseLog
