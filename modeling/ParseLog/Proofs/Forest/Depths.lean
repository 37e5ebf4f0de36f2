import ParseLog.Forest.Listing
import ParseLog.Proofs.Forest.Extents
/-!
# Depths of events

A region is strictly around the events between its brackets, which are not among them. How deep an
event lies is the number of regions strictly around it, and a listing shows it by indentation. A
printer that counts the open regions as it goes through the events prints the same.
-/

namespace ParseLog
set_option autoImplicit false

/-- Whether the region is strictly around the place: its brackets are outside. -/
def Extent.surrounds (r : Extent) (place : Nat) : Bool :=
  r.start < place && r.stop.all (place < ·)

namespace Extent
variable {r : Extent} {place stop : Nat}

theorem not_surrounds_before (h : place ≤ r.start) : r.surrounds place = false := by
  have hnot : ¬ r.start < place := by omega
  simp [surrounds, hnot]

theorem not_surrounds_after (hstop : r.stop = some stop) (h : stop ≤ place) :
    r.surrounds place = false := by
  have hnot : ¬ place < stop := by omega
  simp [surrounds, hstop, hnot]

end Extent

namespace Forest

/-- The number of regions strictly around a place, if the first event stands at `start`. -/
def depthAt (start place : Nat) (f : Forest) : Nat :=
  (f.extents start).countP (·.surrounds place)

section Depth
variable {f body later : Forest} {left : Bracket} {start place : Nat}

theorem depthAt_before (hf : f.IsGrown) (h : place ≤ start) : f.depthAt start place = 0 := by
  refine List.countP_eq_zero.mpr fun r hr => ?_
  have hle := (placed_of_mem_extents hf hr).le_start
  simp [Extent.not_surrounds_before (Nat.le_trans h hle)]

theorem depthAt_after (hf : f.IsClosed) (h : start + f.events.length ≤ place) :
    f.depthAt start place = 0 := by
  refine List.countP_eq_zero.mpr fun r hr => ?_
  obtain ⟨stop, hstop⟩ := Option.ne_none_iff_exists'.mp (hf.stop_ne_none hr)
  have hlt := (placed_of_mem_extents hf.isGrown hr).stop_lt stop hstop
  simp [Extent.not_surrounds_after hstop (Nat.le_trans (Nat.le_of_lt hlt) h)]

theorem depthAt_leaf (e : Event) :
    (leaf e later).depthAt start place = later.depthAt (start + 1) place := rfl

theorem depthAt_region (right : Bracket) :
    (region left body (some right) later).depthAt start place =
      (body.depthAt (start + 1) place +
        later.depthAt (start + 1 + body.events.length + 1) place) +
      if start < place ∧ place < start + 1 + body.events.length then 1 else 0 := by
  simp [depthAt, extents, List.countP_cons, Extent.surrounds]

section Region
variable {right : Bracket} (hbody : body.IsClosed) (hlater : later.IsGrown)
include hbody hlater

theorem depthAt_region_left : (region left body (some right) later).depthAt start start = 0 := by
  rw [depthAt_region, depthAt_before hbody.isGrown (by omega), depthAt_before hlater (by omega),
    if_neg (by omega)]

theorem depthAt_region_right : (region left body (some right) later).depthAt start
    (start + 1 + body.events.length) = 0 := by
  rw [depthAt_region, depthAt_after hbody (by omega), depthAt_before hlater (by omega),
    if_neg (by omega)]

omit hbody in
theorem depthAt_region_body (hle : start + 1 ≤ place)
    (hlt : place < start + 1 + body.events.length) :
    (region left body (some right) later).depthAt start place =
      body.depthAt (start + 1) place + 1 := by
  rw [depthAt_region, depthAt_before hlater (by omega), if_pos (by omega), Nat.add_zero]

omit hlater in
theorem depthAt_region_later (hle : start + 1 + body.events.length + 1 ≤ place) :
    (region left body (some right) later).depthAt start place =
      later.depthAt (start + 1 + body.events.length + 1) place := by
  rw [depthAt_region, depthAt_after hbody (by omega), if_neg (by omega), Nat.zero_add, Nat.add_zero]

end Region

theorem depthAt_opened :
    (region left body none nil).depthAt start place =
      body.depthAt (start + 1) place + if start < place then 1 else 0 := by
  simp [depthAt, extents, List.countP_cons, Extent.surrounds]

theorem depthAt_opened_left (hbody : body.IsGrown) :
    (region left body none nil).depthAt start start = 0 := by
  rw [depthAt_opened, depthAt_before hbody (by omega), if_neg (by omega)]

theorem depthAt_opened_body (hle : start + 1 ≤ place) :
    (region left body none nil).depthAt start place = body.depthAt (start + 1) place + 1 := by
  rw [depthAt_opened, if_pos (by omega)]

end Depth

/-- The events from `start` on, each with its level if `depth` is the depth at a place. -/
def levels (level start : Nat) (depth : Nat → Nat) (es : List Event) : List (Nat × Event) :=
  (es.zipIdx start).map fun x => (level + depth x.2, x.1)

section Levels
variable {level start : Nat} {depth depth' : Nat → Nat}

theorem levels_cons (e : Event) (es : List Event) : levels level start depth (e :: es) =
    (level + depth start, e) :: levels level (start + 1) depth es := rfl

theorem levels_append (es fs : List Event) : levels level start depth (es ++ fs) =
    levels level start depth es ++ levels level (start + es.length) depth fs := by
  rw [levels, List.zipIdx_append, List.map_append]
  rfl

theorem levels_succ (es : List Event) :
    levels (level + 1) start depth es = levels level start (fun place => depth place + 1) es := by
  refine List.map_congr_left fun x _ => ?_
  rw [Nat.add_assoc, Nat.add_comm 1]

theorem levels_congr {es : List Event}
    (h : ∀ place, start ≤ place → place < start + es.length → depth place = depth' place) :
    levels level start depth es = levels level start depth' es := by
  refine List.map_congr_left fun x hx => ?_
  rw [h x.2 (List.le_snd_of_mem_zipIdx hx) (List.snd_lt_add_of_mem_zipIdx hx)]

end Levels

/-- The level of an event is told by its depth. -/
theorem leveled_eq {f : Forest} (hf : f.IsGrown) (level start : Nat) :
    f.leveled level = levels level start (f.depthAt start) f.events := by
  induction f generalizing level start with
  | nil => rfl
  | leaf e later ih =>
    cases hf with
    | leaf _ hlater =>
      have hfirst : later.depthAt (start + 1) start = 0 := depthAt_before hlater (by omega)
      rw [leveled, events, levels_cons, depthAt_leaf, hfirst, ih hlater level (start + 1)]
      rfl
  | region left body right later ihb ihl =>
    cases hf with
    | region _ hbody hlater =>
      -- The region counts for its body only, and each part for its own events only.
      have hinside : levels level (start + 1)
          ((region left body (some left.other) later).depthAt start) body.events =
            body.leveled (level + 1) := by
        rw [ihb hbody.isGrown (level + 1) (start + 1), levels_succ]
        exact levels_congr fun place hle hlt => depthAt_region_body hlater hle hlt
      have hafter : levels level (start + 1 + body.events.length + 1)
          ((region left body (some left.other) later).depthAt start) later.events =
            later.leveled level := by
        rw [ihl hlater level (start + 1 + body.events.length + 1)]
        exact levels_congr fun place hle _ => depthAt_region_later hbody hle
      rw [events, levels_cons, levels_append, hinside, depthAt_region_left hbody hlater]
      simp only [Option.toList_some, List.map_cons, List.map_nil, List.singleton_append,
        levels_cons, hafter, depthAt_region_right hbody hlater]
      rfl
    | opened _ hbody =>
      have hinside : levels level (start + 1) ((region left body none nil).depthAt start)
          body.events = body.leveled (level + 1) := by
        rw [ihb hbody (level + 1) (start + 1), levels_succ]
        exact levels_congr fun place hle _ => depthAt_opened_body hle
      rw [events, levels_cons, levels_append, hinside, depthAt_opened_left hbody]
      rfl

end Forest

section Listing
variable {lvl : Detail}

theorem listing_nil : listing lvl [] = "" := rfl

theorem listing_cons (x : Nat × Event) (xs : List (Nat × Event)) :
    listing lvl (x :: xs) = listingLine lvl x.1 x.2 ++ listing lvl xs := by
  simp [listing]

theorem listing_append (xs ys : List (Nat × Event)) :
    listing lvl (xs ++ ys) = listing lvl xs ++ listing lvl ys := by
  simp [listing]

end Listing

/-- What a printer knows that goes through the events once. -/
structure Printer where
  /-- The number of regions that are open. -/
  depth : Nat
  printed : String

namespace Printer

/-- Prints the next event. A left bracket stands outside the region that it opens, and a right one
outside the region that it closes. -/
def print (lvl : Detail) (p : Printer) (e : Event) : Printer :=
  match e with
  | .bracket b =>
    match b.side with
    | .left => ⟨p.depth + 1, p.printed ++ listingLine lvl (p.depth + 1) e⟩
    | .right => ⟨p.depth - 1, p.printed ++ listingLine lvl p.depth e⟩
  | _ => ⟨p.depth, p.printed ++ listingLine lvl (p.depth + 1) e⟩

def run (lvl : Detail) (p : Printer) (es : List Event) : Printer := es.foldl (print lvl) p

def start : Printer := ⟨0, ""⟩

section Run
variable {lvl : Detail} {depth : Nat} {text : String}

theorem run_cons (p : Printer) (e : Event) (es : List Event) :
    run lvl p (e :: es) = run lvl (print lvl p e) es := rfl

theorem run_append (p : Printer) (es fs : List Event) :
    run lvl p (es ++ fs) = run lvl (run lvl p es) fs := List.foldl_append

theorem print_of_not_bracket {e : Event} (he : e.isBracket = false) :
    print lvl ⟨depth, text⟩ e = ⟨depth, text ++ listingLine lvl (depth + 1) e⟩ := by
  cases e <;> first | rfl | cases he

theorem print_left {b : Bracket} (hb : b.side = .left) : print lvl ⟨depth, text⟩ (.bracket b) =
    ⟨depth + 1, text ++ listingLine lvl (depth + 1) (.bracket b)⟩ := by
  simp only [print, hb]

theorem print_right {b : Bracket} (hb : b.side = .right) :
    print lvl ⟨depth + 1, text⟩ (.bracket b) =
      ⟨depth, text ++ listingLine lvl (depth + 1) (.bracket b)⟩ := by
  simp only [print, hb, Nat.add_sub_cancel]

/-- A printer goes through a closed region and is as deep as before if its body leaves it so. -/
theorem run_region {left : Bracket} {body later : Forest} (hside : left.side = .left)
    (hbody : ∀ depth text, run lvl ⟨depth, text⟩ body.events =
      ⟨depth, text ++ listing lvl (body.leveled (depth + 1))⟩) :
    run lvl ⟨depth, text⟩ (Forest.region left body (some left.other) later).events =
      run lvl ⟨depth, text ++ (listingLine lvl (depth + 1) (.bracket left) ++
        (listing lvl (body.leveled (depth + 2)) ++
          listingLine lvl (depth + 1) (.bracket left.other)))⟩ later.events := by
  have hright : left.other.side = .right := side_other hside
  rw [Forest.events, run_cons, print_left hside, run_append, hbody]
  simp only [Option.toList_some, List.map_cons, List.map_nil, List.singleton_append, run_cons,
    print_right hright, String.append_assoc]

theorem listing_region {left right : Bracket} {body later : Forest} (level : Nat) :
    listing lvl ((Forest.region left body (some right) later).leveled level) =
      listingLine lvl level (.bracket left) ++ (listing lvl (body.leveled (level + 1)) ++
        listingLine lvl level (.bracket right)) ++ listing lvl (later.leveled level) := by
  simp only [Forest.leveled, Option.toList_some, List.map_cons, List.map_nil, listing_cons,
    listing_append, List.singleton_append, String.append_assoc]

/-- After a closed forest the printer is as deep as before it. -/
theorem run_closed {f : Forest} (hf : f.IsClosed) (depth : Nat) (text : String) :
    run lvl ⟨depth, text⟩ f.events = ⟨depth, text ++ listing lvl (f.leveled (depth + 1))⟩ := by
  induction hf generalizing depth text with
  | nil => simp [run, Forest.events, Forest.leveled, listing_nil]
  | leaf hevent _ ih =>
    rw [Forest.events, run_cons, print_of_not_bracket hevent, ih, Forest.leveled, listing_cons,
      String.append_assoc]
  | region hside _ _ ihb ihl =>
    rw [run_region hside ihb, ihl, listing_region, String.append_assoc]

theorem printed_grown {f : Forest} (hf : f.IsGrown) (depth : Nat) (text : String) :
    (run lvl ⟨depth, text⟩ f.events).printed = text ++ listing lvl (f.leveled (depth + 1)) := by
  induction hf generalizing depth text with
  | nil => simp [run, Forest.events, Forest.leveled, listing_nil]
  | leaf hevent _ ih =>
    rw [Forest.events, run_cons, print_of_not_bracket hevent, ih, Forest.leveled, listing_cons,
      String.append_assoc]
  | region hside hbody _ ih =>
    rw [run_region hside (run_closed hbody), ih, listing_region, String.append_assoc]
  | opened hside _ ih =>
    simp only [Forest.events, Option.toList_none, List.map_nil, List.append_nil, run_cons,
      print_left hside, ih]
    simp only [Forest.leveled, Option.toList_none, List.map_nil, List.append_nil, listing_cons,
      String.append_assoc]

end Run

end Printer

theorem join_replicate_indent (n : Nat) :
    String.join (List.replicate n "  ") = String.ofList (List.replicate (2 * n) ' ') := by
  induction n with
  | zero => rfl
  | succ n ih =>
    rw [List.replicate_succ, String.join_cons, ih, Nat.mul_succ, Nat.add_comm,
      ← List.replicate_append_replicate, String.ofList_append]
    rfl

/-- The listing of a log has a line for every event in order. The line is indented by two spaces and
two more for each region strictly around the event. A printer prints it in one pass with no more in
mind than the number of open regions. Diagnostics show the listing at the long level. -/
theorem Log.render_forest {l : Log} {f : Forest} (h : l.forest = .ok f) (lvl : Detail) :
    f.render lvl = String.join (l.toList.zipIdx.map fun x =>
      String.ofList (List.replicate (2 * (1 + f.depthAt 0 x.2)) ' ') ++ x.1.render lvl ++ "\n") ∧
    f.render lvl = (Printer.start.run lvl l.toList).printed ∧
    f.dump = f.render .long ∧ toString f = f.render .long := by
  have hgrown : f.IsGrown := Forest.isGrown_ofEvents h
  have hevents : f.events = l.toList := Forest.events_ofEvents h
  have hrender : f.render lvl = listing lvl (f.leveled 1) := rfl
  refine ⟨?_, ?_, rfl, rfl⟩
  · rw [hrender, Forest.leveled_eq hgrown 1 0, hevents, listing, Forest.levels, List.map_map]
    congr 1
    refine List.map_congr_left fun x _ => ?_
    rw [Function.comp_apply, listingLine, join_replicate_indent]
  · rw [hrender, ← hevents, Printer.start, Printer.printed_grown hgrown, String.empty_append]

/-! ### A log with a closed region in an open one -/

namespace Unfinished

def panel : Region := .boundary ⟨"Panel", by decide +kernel⟩

def started : Log := .ofList
  [.chunk (.plain "a"), .bracket ⟨.left, .embed .html⟩, .bracket ⟨.left, panel⟩,
    .chunk (.plain "b"), .bracket ⟨.right, panel⟩, .marker .loop]

def shown : Forest :=
  .leaf (.chunk (.plain "a"))
    (.region ⟨.left, .embed .html⟩
      (.region ⟨.left, panel⟩ (.leaf (.chunk (.plain "b")) .nil) (some ⟨.right, panel⟩)
        (.leaf (.marker .loop) .nil)) none .nil)

end Unfinished

open Unfinished in
theorem Log.render_forest_unfinished :
    started.forest = .ok shown ∧
      shown.dump = (Printer.start.run .long started.toList).printed ∧
      shown.dump = "  \"a\"\n  html\n    <Panel>\n      \"b\"\n    </Panel>\n    \x7b+\x7d\n" := by
  have hshown : started.forest = .ok shown := by rfl
  exact ⟨hshown, (render_forest hshown .long).2.1, by decide +kernel⟩

end ParseLog
