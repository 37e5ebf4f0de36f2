import ParseLog.Proofs.Log.Committing
import ParseLog.Proofs.Log.Regrouping
/-!
# Speculation of two kinds

Two kinds of speculation that are open at once do not get in each other's way. The marker that stands
higher goes away in what the other commit keeps, or together with what a rollback drops. Two commits
leave two seams, and since coalescing is associative it does not matter which of them closes first.
-/

namespace ParseLog
set_option autoImplicit false

namespace Log
variable {l base : Log} {m k : Marker} {between last : List Event}

/-! ### Grafting on what was grafted -/

theorem absorb_marker (l : Log) (k : Marker) : l.absorb (.marker k) = l.mark k := by
  apply absorb_eq_append
  intro a _
  cases a <;> rfl

/-- A marker keeps what follows it from coalescing. -/
theorem graft_mark (base : Log) (between : List Event) (k : Marker) (last : List Event) :
    base.graft (between ++ .marker k :: last) = ((base.graft between).mark k).appendAll last := by
  cases between with
  | nil => exact congrArg (·.appendAll last) (absorb_marker base k)
  | cons first later =>
    rw [List.cons_append, graft, appendAll_append, graft]
    rfl

/-- The last event grafted is absorbed if it is the only one and appended if it is not. -/
theorem graft_concat (base : Log) (es : List Event) :
    (∃ l : Log, ∀ a, base.graft (es ++ [a]) = l.absorb a) ∨
      ∃ l : Log, ∀ a, base.graft (es ++ [a]) = l.append a := by
  cases es with
  | nil => exact .inl ⟨base, fun a => rfl⟩
  | cons first later =>
    refine .inr ⟨(base.absorb first).appendAll later, fun a => ?_⟩
    rw [List.cons_append, graft, appendAll_append]
    rfl

theorem graft_append (base : Log) {es : List Event} (hes : es ≠ []) (fs : List Event) :
    base.graft (es ++ fs) = (base.graft es).appendAll fs := by
  cases es with
  | nil => exact absurd rfl hes
  | cons first later => exact appendAll_append (base.absorb first) later fs

/-- An event may go into the last of those grafted before they are grafted. -/
theorem graft_toList_absorb (base l : Log) (e : Event) :
    base.graft (l.absorb e).toList = (base.graft l.toList).absorb e := by
  obtain rfl | ⟨older, last, rfl⟩ := l.eq_empty_or_append
  · rfl
  · cases hm : last.coalesce? e with
    | none =>
      have hlast : (older.append last).toList ≠ [] := by simp
      rw [absorb_append_of_none older hm, toList_append _ e, graft_append base hlast, toList_append]
      rcases graft_concat base older.toList with ⟨l, hl⟩ | ⟨l, hl⟩
      · rw [hl, absorb_absorb_of_none l hm]
        rfl
      · rw [hl, absorb_append_of_none l hm]
        rfl
    | some merged =>
      rw [absorb_append older hm, toList_append, toList_append]
      rcases graft_concat base older.toList with ⟨l, hl⟩ | ⟨l, hl⟩
      · rw [hl, hl, absorb_absorb l hm]
      · rw [hl, hl, absorb_append l hm]

theorem toList_absorb_ne_nil (l : Log) (e : Event) : (l.absorb e).toList ≠ [] := by
  obtain ⟨-, habsorb⟩ | ⟨older, last, merged, rfl, hm, habsorb⟩ := absorb_cases l e
  · simp [habsorb]
  · simp [habsorb]

/-- Two seams may be closed in either order, also when they share an event. -/
theorem graft_graft (base : Log) (between last : List Event) :
    base.graft ((ofList between).graft last).toList = (base.graft between).graft last := by
  cases last with
  | nil => simp [graft]
  | cons first later =>
    rw [graft, toList_appendAll, graft_append base (toList_absorb_ne_nil (ofList between) first),
      graft_toList_absorb, toList_ofList]
    rfl

/-! ### A log with two kinds of markers -/

/-- The log with `m` pushed on it, then `between`, then `k`, then `last`. -/
def crossed (base : Log) (m : Marker) (between : List Event) (k : Marker) (last : List Event) :
    Log := (base.mark m).appendAll (between ++ .marker k :: last)

theorem crossed_eq (base : Log) (m : Marker) (between : List Event) (k : Marker)
    (last : List Event) : base.crossed m between k last =
      (((base.mark m).appendAll between).mark k).appendAll last :=
  appendAll_append (base.mark m) between (.marker k :: last)

theorem not_mem_crossed (hbetween : .marker m ∉ between) (hlast : .marker m ∉ last)
    (hmk : m ≠ k) : .marker m ∉ between ++ .marker k :: last := by
  simp only [List.mem_append, List.mem_cons, Event.marker.injEq, not_or]
  exact ⟨hbetween, hmk, hlast⟩

/-- Of two kinds that are both on the log, one has its last marker above that of the other. -/
theorem mem_since_or (hm : .marker m ∈ l.recent) (hk : .marker k ∈ l.recent) (hmk : m ≠ k) :
    .marker k ∈ l.since m ∨ .marker m ∈ l.since k := by
  obtain ⟨base, after, rfl, hafter⟩ := exists_mark hm
  rw [since_mark hafter, List.mem_reverse]
  by_cases hnewer : .marker k ∈ after
  · exact .inl hnewer
  · -- The last `k` is below the last `m`, which is thus among what came after it.
    right
    have hbelow : .marker k ∈ base.recent := by
      rw [recent_appendAll_mark, List.mem_append, List.mem_reverse, List.mem_cons] at hk
      rcases hk with habove | hsame | hbelow
      · exact absurd habove hnewer
      · exact absurd (Event.marker.inj hsame).symm hmk
      · exact hbelow
    obtain ⟨bottom, between, rfl, hbetween⟩ := exists_mark hbelow
    rw [← crossed_eq, crossed, since_mark (not_mem_crossed hbetween hnewer hmk.symm),
      List.mem_reverse]
    exact List.mem_append_right between List.mem_cons_self

/-- A log with `k` begun above the last `m`, told by the last of each. -/
theorem exists_crossed (hm : .marker m ∈ l.recent) (hk : .marker k ∈ l.since m) :
    ∃ (base : Log) (between last : List Event), l = base.crossed m between k last ∧
      .marker m ∉ between ∧ .marker m ∉ last ∧ .marker k ∉ last := by
  obtain ⟨base, after, rfl, hafter⟩ := exists_mark hm
  rw [since_mark hafter] at hk
  have hkafter : .marker k ∈ (ofList after).recent := by
    rw [← List.mem_reverse, ← toList, toList_ofList]
    exact List.mem_reverse.mp hk
  obtain ⟨lower, last, hsplit, hlast⟩ := exists_mark hkafter
  obtain rfl : after = lower.toList ++ .marker k :: last := by
    rw [← toList_appendAll_mark, ← hsplit, toList_ofList]
  simp only [List.mem_append, List.mem_cons, not_or] at hafter
  exact ⟨base, lower.toList, last, rfl, hafter.1, hafter.2.2, hlast⟩

section Crossed
-- The last `m` stands below the last `k`.
variable (hbetween : .marker m ∉ between) (hmlast : .marker m ∉ last) (hklast : .marker k ∉ last)

include hklast in
/-- The upper commit changes only what stands above the lower marker. -/
theorem commit_upper (hk : k ≠ .lookahead) (base : Log) (m : Marker) (between : List Event) :
    (base.crossed m between k last).commit k =
      .ok ((base.mark m).appendAll ((ofList between).graft last).toList) := by
  have hgraft := graft_onto_mark (ofList between) base m last
  rw [onto_eq_appendAll, onto_eq_appendAll, toList_ofList] at hgraft
  rw [crossed_eq, commit_mark hklast hk, hgraft]

include hbetween hmlast in
theorem not_mem_committed : .marker m ∉ ((ofList between).graft last).toList := by
  intro hmem
  rcases mem_graft rfl (List.mem_reverse.mp hmem) with hupper | hlower
  · exact hmlast hupper
  · rw [← List.mem_reverse, ← toList, toList_ofList] at hlower
    exact hbetween hlower

/-- What the upper commit keeps has the same text. -/
theorem rawText_committed (between last : List Event) (k : Marker) :
    rawText ((ofList between).graft last).toList = rawText (between ++ .marker k :: last) := by
  have htext := transcript_graft (ofList between) last
  rw [toList_ofList] at htext
  have hmarked : transcript (between ++ .marker k :: last) =
      transcript between ++ transcript last := by
    rw [transcript_append, transcript_cons, Event.text_eq_blank (e := .marker k) rfl,
      Chunk.blank_append]
  exact congrArg Chunk.raw (htext.trans hmarked.symm)

variable (hmk : m ≠ k)

include hbetween hmlast hmk in
/-- The lower commit leaves the upper marker and all that follows it as they are. -/
theorem commit_lower (hm : m ≠ .lookahead) (base : Log) :
    (base.crossed m between k last).commit m =
      .ok (((base.graft between).mark k).appendAll last) := by
  rw [crossed, commit_mark (not_mem_crossed hbetween hmlast hmk) hm, graft_mark]

include hbetween hmlast hklast hmk

theorem commit_commit (hm : m ≠ .lookahead) (hk : k ≠ .lookahead) (base : Log) :
    ((base.crossed m between k last).commit m >>= (·.commit k)) =
        .ok ((base.graft between).graft last) ∧
      ((base.crossed m between k last).commit k >>= (·.commit m)) =
        .ok ((base.graft between).graft last) := by
  constructor
  · rw [commit_lower hbetween hmlast hmk hm]
    exact commit_mark hklast hk (base.graft between)
  · rw [commit_upper hklast hk]
    have hcommit := commit_mark (not_mem_committed hbetween hmlast) hm base
    rw [graft_graft] at hcommit
    exact hcommit

theorem rollback_commit_upper (hk : k ≠ .lookahead) (base : Log) (i : Input) :
    (base.crossed m between k last).rollback m i =
        .ok (base, i.restore (rawText (between ++ .marker k :: last))) ∧
      ((base.crossed m between k last).commit k >>= (·.rollback m i)) =
        .ok (base, i.restore (rawText (between ++ .marker k :: last))) := by
  constructor
  · exact rollback_mark (not_mem_crossed hbetween hmlast hmk) base i
  · rw [commit_upper hklast hk]
    have hrollback := rollback_mark (not_mem_committed hbetween hmlast) base i
    rw [rawText_committed between last k] at hrollback
    exact hrollback

theorem rollback_commit_lower (hm : m ≠ .lookahead) (base : Log) (i : Input) :
    ((base.crossed m between k last).commit m >>= (·.rollback k i)) =
        .ok (base.graft between, i.restore (rawText last)) ∧
      ((base.crossed m between k last).rollback k i >>= fun q => (q.1.commit m).map (·, q.2)) =
        .ok (base.graft between, i.restore (rawText last)) := by
  constructor
  · rw [commit_lower hbetween hmlast hmk hm]
    exact rollback_mark hklast (base.graft between) i
  · rw [crossed_eq, rollback_mark hklast]
    exact congrArg (Except.map (·, i.restore (rawText last))) (commit_mark hbetween hm base)

end Crossed

/-- Two commits of different kinds may change places. A rollback gives the same whether or not
speculation begun after its marker was committed before, and speculation begun before its marker may
be committed before or after the rollback. -/
theorem resolved_in_any_order :
    (∀ l : Log, .marker .branch ∈ l.recent → .marker .loop ∈ l.recent →
      ∃ r, (l.commit .branch >>= (·.commit .loop)) = .ok r ∧
        (l.commit .loop >>= (·.commit .branch)) = .ok r) ∧
    ∀ (l : Log) (i : Input) (m k : Marker), m ≠ .lookahead → m ≠ k →
      .marker m ∈ l.recent → .marker k ∈ l.recent →
      (.marker m ∈ l.since k →
        ∃ r, l.rollback k i = .ok r ∧ (l.commit m >>= (·.rollback k i)) = .ok r) ∧
      (.marker m ∉ l.since k →
        ∃ r, (l.commit m >>= (·.rollback k i)) = .ok r ∧
          (l.rollback k i >>= fun q => (q.1.commit m).map (·, q.2)) = .ok r) := by
  have hkinds : Marker.branch ≠ .loop := nofun
  have hbranch : Marker.branch ≠ .lookahead := nofun
  have hloop : Marker.loop ≠ .lookahead := nofun
  refine ⟨fun l hb hl => ?_, fun l i m k hm hmk hmarked hkmarked => ⟨fun habove => ?_, ?_⟩⟩
  · rcases mem_since_or hb hl hkinds with habove | habove
    · obtain ⟨base, between, last, rfl, hbetween, hblast, hllast⟩ := exists_crossed hb habove
      exact ⟨_, commit_commit hbetween hblast hllast hkinds hbranch hloop base⟩
    · obtain ⟨base, between, last, rfl, hbetween, hllast, hblast⟩ := exists_crossed hl habove
      exact ⟨_, (commit_commit hbetween hllast hblast hkinds.symm hloop hbranch base).symm⟩
  · obtain ⟨base, between, last, rfl, hbetween, hklast, hmlast⟩ := exists_crossed hkmarked habove
    exact ⟨_, rollback_commit_upper hbetween hklast hmlast hmk.symm hm base i⟩
  · intro hnotabove
    have hbelow := (mem_since_or hmarked hkmarked hmk).resolve_right hnotabove
    obtain ⟨base, between, last, rfl, hbetween, hmlast, hklast⟩ := exists_crossed hmarked hbelow
    exact ⟨_, rollback_commit_lower hbetween hmlast hklast hmk hm base i⟩

end Log

/-! ### A chunk between two markers, which belongs to both seams -/

namespace SharedSeam

def log : Log :=
  Log.ofList [.chunk (.plain "a"), .marker .branch, .chunk ⟨"<", "&lt;"⟩, .marker .loop,
    .chunk (.plain "b")]

def input : Input := .ofString "c"

def committed : Log := Log.ofList [.chunk ⟨"a<b", "a&lt;b"⟩]

def resumed : Log × Input := (Log.ofList [.chunk ⟨"a<", "a&lt;"⟩], ⟨"", "bc", true⟩)

end SharedSeam

theorem Log.resolved_in_any_order_shared :
    .marker .branch ∈ SharedSeam.log.recent ∧ .marker .loop ∈ SharedSeam.log.recent ∧
      (SharedSeam.log.commit .branch >>= (·.commit .loop)) = .ok SharedSeam.committed ∧
      (SharedSeam.log.commit .loop >>= (·.commit .branch)) = .ok SharedSeam.committed ∧
      .marker .loop ∈ SharedSeam.log.since .branch ∧
      (SharedSeam.log.commit .loop >>= (·.rollback .branch SharedSeam.input)) =
        SharedSeam.log.rollback .branch SharedSeam.input ∧
      .marker .branch ∉ SharedSeam.log.since .loop ∧
      (SharedSeam.log.rollback .loop SharedSeam.input >>=
        fun q => (q.1.commit .branch).map (·, q.2)) = .ok SharedSeam.resumed := by
  have hb : .marker .branch ∈ SharedSeam.log.recent := by decide
  have hl : .marker .loop ∈ SharedSeam.log.recent := by decide
  have habove : .marker .loop ∈ SharedSeam.log.since .branch := by decide
  have hbelow : .marker .branch ∉ SharedSeam.log.since .loop := by decide
  obtain ⟨hcommits, hrollbacks⟩ := Log.resolved_in_any_order
  obtain ⟨r, hfirst, hsecond⟩ := hcommits SharedSeam.log hb hl
  obtain rfl : r = SharedSeam.committed := Except.ok.inj (hfirst.symm.trans rfl)
  obtain ⟨q, hdirect, hafter⟩ :=
    (hrollbacks SharedSeam.log SharedSeam.input .loop .branch nofun nofun hl hb).1 habove
  obtain ⟨p, hcommitted, hrolled⟩ :=
    (hrollbacks SharedSeam.log SharedSeam.input .branch .loop nofun nofun hb hl).2 hbelow
  obtain rfl : p = SharedSeam.resumed := Except.ok.inj (hcommitted.symm.trans rfl)
  exact ⟨hb, hl, hfirst, hsecond, habove, hafter.trans hdirect.symm, hbelow, hrolled⟩

end ParseLog
