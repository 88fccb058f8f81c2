-- SUMMARY: Which lists of segments are the divisions of the texts that they make up, and what changed segments give.
import ScriptScan.Proofs.Scan.Run
import ScriptScan.Proofs.Source.Glance

/-!
# Divisions

A list of segments is the division of the text that it makes up if each segment is well-formed and may end where the
next one begins. So a division of a changed text need not be read: it is enough that the changed segments stay apart.
-/

namespace ScriptScan

theorem joined_cons (s : Segment) (ss : List Segment) : joined (s :: ss) = s.text ++ joined ss := by
  rw [joined, List.flatMap_cons, joined]

/-- Segments that stay apart in the text that they make up. -/
def Separable : List Segment → Prop
  | [] => True
  | s :: ss => s.Formed ∧ s.EndsAt (glance (joined ss)) ∧ Separable ss

theorem separable_segments (text : List Char) : Separable (segments text) := by
  induction text using segments.induct with
  | case1 =>
    rw [segments]
    trivial
  | case2 c cs ih =>
    rw [segments]
    refine ⟨⟨_, (Segment.starts_read c cs).fits⟩, ?_, ih⟩
    rw [joined_segments]
    exact Segment.endsAt_read c cs

theorem segments_joined {ss : List Segment} (h : Separable ss) : segments (joined ss) = ss := by
  induction ss with
  | nil => rw [joined, List.flatMap_nil, segments]
  | cons s ss ih =>
    obtain ⟨formed, ends, hss⟩ := h
    obtain ⟨c, cs, hcons⟩ := List.exists_cons_of_ne_nil formed.text_ne_nil
    have htext : joined (s :: ss) = c :: (cs ++ joined ss) := by
      rw [joined_cons, hcons, List.cons_append]
    have hread : Segment.read c (cs ++ joined ss) = (s, joined ss) :=
      Segment.read_of_endsAt formed ends (by rw [hcons, List.cons_append])
    rw [htext, segments, hread, ih hss]

/-! ## Changed segments -/

theorem Separable.map {change : Segment → Segment} (formed : ∀ s : Segment, s.Formed → (change s).Formed)
    (ends : ∀ s ss, Separable (s :: ss) → (change s).EndsAt (glance (joined (ss.map change))))
    {ss : List Segment} (h : Separable ss) : Separable (ss.map change) := by
  induction ss with
  | nil => trivial
  | cons s ss ih => exact ⟨formed s h.1, ends s ss h, ih h.2.2⟩

theorem Separable.formed {ss : List Segment} (h : Separable ss) : ∀ s ∈ ss, s.Formed := by
  induction ss with
  | nil => nofun
  | cons s ss ih => exact List.forall_mem_cons.mpr ⟨h.1, ih h.2.2⟩

section alongLines

variable {α : Type} {give : Nat → Segment → List α} {change : Segment → Segment} {ss : List Segment}
  (feeds : ∀ s ∈ ss, (change s).lineFeeds = s.lineFeeds)

include feeds

theorem count_joined_map : (joined (ss.map change)).count '\n' = (joined ss).count '\n' := by
  induction ss with
  | nil => rfl
  | cons s ss ih =>
    obtain ⟨hs, hss⟩ := List.forall_mem_cons.mp feeds
    rw [List.map_cons, count_joined_cons, count_joined_cons, hs, ih hss]

/-- Changed segments with the same line feeds give what the changes make of each, on the same lines. -/
theorem alongLines_map {view : α → Option α}
    (given : ∀ s ∈ ss, ∀ line, give line (change s) = (give line s).filterMap view) (line : Nat) :
    alongLines give line (ss.map change) = (alongLines give line ss).filterMap view := by
  induction ss generalizing line with
  | nil => rfl
  | cons s ss ih =>
    obtain ⟨hfeeds, hrestFeeds⟩ := List.forall_mem_cons.mp feeds
    obtain ⟨hgiven, hrestGiven⟩ := List.forall_mem_cons.mp given
    rw [List.map_cons, alongLines, alongLines, hfeeds, hgiven, ih hrestFeeds hrestGiven, List.filterMap_append]

end alongLines

end ScriptScan
