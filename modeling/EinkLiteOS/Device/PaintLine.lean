/-
# Device.PaintLine -- lines and rectangles

`Paint_DrawLine` walks from one end point to the other with an accumulated error and draws a
dot at the head of every turn.  In steps along the two axes it is the walk of
`Theory.LineWalk`, so it always ends, inside the box of its end points; but for the slopes
from one half to below one it breaks when the last dot is still to be drawn
(`line_complete_iff`).
-/
import EinkLiteOS.Theory.LineWalk
import EinkLiteOS.Device.PaintClear
import EinkLiteOS.Device.PaintDot

namespace EinkLiteOS.Device

open EinkLiteOS.Theory.Loop EinkLiteOS.Theory.LineWalk

set_option autoImplicit false

def imageBackground : UInt16 := white

/-- `LINE_STYLE` -/
inductive LineStyle where
  | solid | dotted
  deriving DecidableEq, Repr

/-- `DRAW_FILL` -/
inductive DrawFill where
  | empty | full
  deriving DecidableEq, Repr

/-- The end points of a line. -/
structure Line where
  xstart : UInt16
  ystart : UInt16
  xend : UInt16
  yend : UInt16
  deriving DecidableEq, Repr

namespace Line

variable (line : Line)

def dx : Int :=
  if (line.xend.toNat : Int) - line.xstart.toNat ≥ 0 then line.xend.toNat - line.xstart.toNat
  else line.xstart.toNat - line.xend.toNat

/-- Never positive. -/
def dy : Int :=
  if (line.yend.toNat : Int) - line.ystart.toNat ≤ 0 then line.yend.toNat - line.ystart.toNat
  else line.ystart.toNat - line.yend.toNat

def xAddway : Int := if line.xstart < line.xend then 1 else -1

def yAddway : Int := if line.ystart < line.yend then 1 else -1

end Line

/-- The variables of the loop of `Paint_DrawLine`.  `Dotted_Len` is a `char`, unsigned here. -/
structure LineState where
  xpoint : UInt16
  ypoint : UInt16
  esp : Int
  dottedLen : UInt8
  deriving DecidableEq, Repr

def lineStart (line : Line) : LineState :=
  { xpoint := line.xstart, ypoint := line.ystart, esp := line.dx + line.dy, dottedLen := 0 }

/-- Every third point of a dotted line is virtual. -/
def IsVirtual (lineStyle : LineStyle) (s : LineState) : Prop :=
  lineStyle = .dotted ∧ (s.dottedLen + 1) % 3 = 0

instance (lineStyle : LineStyle) (s : LineState) : Decidable (IsVirtual lineStyle s) :=
  inferInstanceAs (Decidable (_ ∧ _))

/-- The first test of the loop, towards `Xend`. -/
def stepX (line : Line) (s : LineState) : Option LineState :=
  if 2 * s.esp ≥ line.dy then
    if s.xpoint = line.xend then none
    else some { s with
      esp := s.esp + line.dy
      xpoint := UInt16.ofInt (s.xpoint.toNat + line.xAddway) }
  else some s

/-- The second test, towards `Yend`. -/
def stepY (line : Line) (s : LineState) : Option LineState :=
  if 2 * s.esp ≤ line.dx then
    if s.ypoint = line.yend then none
    else some { s with
      esp := s.esp + line.dx
      ypoint := UInt16.ofInt (s.ypoint.toNat + line.yAddway) }
  else some s

/-- The loop body from head to head. -/
def lineStep (line : Line) (lineStyle : LineStyle) (s : LineState) : Option LineState :=
  let counted := { s with
    dottedLen := if IsVirtual lineStyle s then 0 else s.dottedLen + 1 }
  (stepX line counted).bind (stepY line)

/-- A fuel the loop does not use up (`line_ends`). -/
def lineFuel (line : Line) : Nat := (line.dx - line.dy).toNat + 1

/-- The states at the heads of the loop, each with its dot to be drawn: none when an end
point is off the picture, and no list at all when the fuel does not last. -/
def drawnLine (paint : Paint) (line : Line) (lineStyle : LineStyle) (fuel : Nat) :
    Option (List LineState) :=
  if line.xstart > paint.width ∨ line.ystart > paint.height ∨ line.xend > paint.width ∨
      line.yend > paint.height then some []
  else heads (lineStep line lineStyle) fuel (lineStart line)

/-- `Paint_DrawLine` -/
def paintDrawLine (paint : Paint) (line : Line) (color : UInt16) (lineWidth : DotPixel)
    (lineStyle : LineStyle) : Paint :=
  ((drawnLine paint line lineStyle (lineFuel line)).getD []).foldl (fun paint s =>
    let dotColor := if IsVirtual lineStyle s then imageBackground else color
    paintDrawPoint paint s.xpoint s.ypoint dotColor lineWidth dotStyleDft) paint

/-- `Paint_DrawRectangle` -/
def paintDrawRectangle (paint : Paint) (box : Line) (color : UInt16) (lineWidth : DotPixel)
    (drawFill : DrawFill) : Paint :=
  let ⟨xstart, ystart, xend, yend⟩ := box
  let draw (line : Line) (paint : Paint) : Paint :=
    paintDrawLine paint line color lineWidth .solid
  if xstart > paint.width ∨ ystart > paint.height ∨ xend > paint.width ∨ yend > paint.height then
    paint
  else
    match drawFill with
    | .full =>
        (countTo ystart yend).foldl (fun paint ypoint =>
          draw ⟨xstart, ypoint, xend, ypoint⟩ paint) paint
    | .empty =>
        draw ⟨xend, yend, xstart, yend⟩
          (draw ⟨xend, yend, xend, ystart⟩
            (draw ⟨xstart, ystart, xstart, yend⟩ (draw ⟨xstart, ystart, xend, ystart⟩ paint)))

@[simp] theorem length_paintDrawLine (paint : Paint) (line : Line) (color : UInt16)
    (lineWidth : DotPixel) (lineStyle : LineStyle) :
    (paintDrawLine paint line color lineWidth lineStyle).image.length = paint.image.length :=
  length_foldl (fun _ _ => length_paintDrawPoint ..) _ _

@[simp] theorem length_paintDrawRectangle (paint : Paint) (box : Line) (color : UInt16)
    (lineWidth : DotPixel) (drawFill : DrawFill) :
    (paintDrawRectangle paint box color lineWidth drawFill).image.length =
      paint.image.length := by
  unfold paintDrawRectangle
  dsimp only
  split
  · rfl
  · cases drawFill with
    | full => exact length_foldl (fun _ _ => length_paintDrawLine ..) _ _
    | empty => simp only [length_paintDrawLine]

/-! ## Along one axis -/

/-- The distance between two coordinates. -/
def distance (a b : UInt16) : Nat := if a < b then b.toNat - a.toNat else a.toNat - b.toNat

/-- The coordinate `i` steps from `a` towards `b`. -/
def along (a b : UInt16) (i : Nat) : UInt16 :=
  if a < b then UInt16.ofNat (a.toNat + i) else UInt16.ofNat (a.toNat - i)

theorem toNat_along {a b : UInt16} {i : Nat} (near : i ≤ distance a b) :
    (along a b i).toNat = if a < b then a.toNat + i else a.toNat - i := by
  have bound := a.toNat_lt
  have bound' := b.toNat_lt
  simp only [along, distance] at *
  by_cases up : a < b
  · rw [if_pos up] at near
    rw [UInt16.lt_iff_toNat_lt] at up
    have inRange : a.toNat + i < 2 ^ 16 := by omega
    simp only [UInt16.lt_iff_toNat_lt, if_pos up, UInt16.toNat_ofNat_of_lt' inRange]
  · have inRange : a.toNat - i < 2 ^ 16 := by omega
    simp only [if_neg up, UInt16.toNat_ofNat_of_lt' inRange]

theorem along_eq_end {a b : UInt16} {i : Nat} (near : i ≤ distance a b) :
    along a b i = b ↔ i = distance a b := by
  rw [← UInt16.toNat_inj, toNat_along near]
  simp only [distance] at *
  simp only [UInt16.lt_iff_toNat_lt] at *
  by_cases up : a.toNat < b.toNat
  · rw [if_pos up] at near ⊢
    rw [if_pos up]
    omega
  · rw [if_neg up] at near ⊢
    rw [if_neg up]
    omega

theorem toNat_ofInt {z : Int} (nonneg : 0 ≤ z) (small : z < 65536) :
    (UInt16.ofInt z).toNat = z.toNat := by
  have inRange : (z % 2 ^ 16).toNat < 2 ^ 16 := by omega
  simp only [UInt16.ofInt]
  rw [UInt16.toNat_ofNat_of_lt' inRange]
  omega

theorem along_succ {a b : UInt16} {i : Nat} (near : i < distance a b) :
    UInt16.ofInt ((along a b i).toNat + if a < b then 1 else -1) = along a b (i + 1) := by
  have bound := b.toNat_lt
  have bound' := a.toNat_lt
  rw [← UInt16.toNat_inj, toNat_along (Nat.le_of_lt near), toNat_along near]
  simp only [distance] at near
  by_cases up : a < b
  · simp only [if_pos up] at near ⊢
    rw [toNat_ofInt (by omega) (by omega)]
    omega
  · simp only [if_neg up] at near ⊢
    rw [toNat_ofInt (by omega) (by omega)]
    omega

/-- The coordinate is one of an interval, given by its ends in any order. -/
def Between (a b z : UInt16) : Prop := a ≤ z ∧ z ≤ b ∨ b ≤ z ∧ z ≤ a

theorem along_between {a b : UInt16} {i : Nat} (near : i ≤ distance a b) :
    Between a b (along a b i) := by
  have value := toNat_along near
  simp only [distance] at near
  simp only [Between]
  simp only [UInt16.lt_iff_toNat_lt, UInt16.le_iff_toNat_le] at *
  grind

/-- One step moves a coordinate by one. -/
theorem along_near {a b : UInt16} {i j : Nat} (near : j ≤ distance a b) (le : i ≤ j)
    (next : j ≤ i + 1) :
    (along a b i).toNat ≤ (along a b j).toNat + 1 ∧
      (along a b j).toNat ≤ (along a b i).toNat + 1 := by
  rw [toNat_along near, toNat_along (Nat.le_trans le near)]
  by_cases up : a < b
  · rw [if_pos up, if_pos up]
    omega
  · rw [if_neg up, if_neg up]
    omega

theorem along_inj {a b : UInt16} {i j : Nat} (near : i ≤ distance a b) (near' : j ≤ distance a b)
    (same : along a b i = along a b j) : i = j := by
  have values := congrArg UInt16.toNat same
  rw [toNat_along near, toNat_along near'] at values
  simp only [distance] at *
  by_cases up : a < b
  · rw [if_pos up, if_pos up] at values
    omega
  · rw [if_neg up, if_neg up] at values
    rw [if_neg up] at near near'
    omega

/-! ## The walk of a line -/

/-- How far the line runs, and how far it rises. -/
def run (line : Line) : Nat := distance line.xstart line.xend

def rise (line : Line) : Nat := distance line.ystart line.yend

theorem dx_eq (line : Line) : line.dx = run line := by
  simp only [Line.dx, run, distance]
  simp only [UInt16.lt_iff_toNat_lt]
  split <;> split <;> omega

theorem dy_eq (line : Line) : line.dy = -(rise line : Int) := by
  simp only [Line.dy, rise, distance]
  simp only [UInt16.lt_iff_toNat_lt]
  split <;> split <;> omega

/-- The point of the picture at a point of the walk. -/
def place (line : Line) (p : Nat × Nat) : UInt16 × UInt16 :=
  (along line.xstart line.xend p.1, along line.ystart line.yend p.2)

def LineState.point (s : LineState) : UInt16 × UInt16 := (s.xpoint, s.ypoint)

/-- A state of the loop at a point of the walk. -/
def At (line : Line) (s : LineState) (p : Nat × Nat) : Prop :=
  InBox (run line) (rise line) p ∧ s.point = place line p ∧
    s.esp = err (run line) (rise line) p

theorem lineStart_at (line : Line) : At line (lineStart line) (0, 0) := by
  refine ⟨⟨Nat.zero_le _, Nat.zero_le _⟩, ?_, ?_⟩
  · simp only [place, along, LineState.point]
    simp [lineStart, UInt16.ofNat_toNat]
  · simp only [err]
    rw [lineStart, dx_eq, dy_eq]
    push_cast
    ring

theorem stepX_at {line : Line} {s : LineState} {p : Nat × Nat} (here : At line s p) :
    Option.Rel (At line) (stepX line s) (right (run line) (rise line) p) := by
  obtain ⟨i, j⟩ := p
  obtain ⟨⟨row, column⟩, point, esp⟩ := here
  obtain ⟨xpoint, ypoint⟩ := Prod.mk.inj point
  simp only [stepX, right]
  have atEnd : s.xpoint = line.xend ↔ i = run line := by
    rw [xpoint]
    exact along_eq_end row
  rw [esp, dy_eq]
  by_cases test : 2 * err (run line) (rise line) (i, j) ≥ -(rise line : Int)
  · rw [if_pos test, if_pos test]
    by_cases done : i = run line
    · rw [if_pos (atEnd.mpr done), if_pos done]
      exact .none
    · rw [if_neg (mt atEnd.mp done), if_neg done, xpoint]
      have inside : i < run line := Nat.lt_of_le_of_ne row done
      refine .some ⟨⟨inside, column⟩, ?_, ?_⟩
      · exact Prod.ext (along_succ inside) ypoint
      · rw [err_right]
        exact (Int.sub_eq_add_neg ..).symm
  · rw [if_neg test, if_neg test]
    exact .some ⟨⟨row, column⟩, point, esp⟩

theorem stepY_at {line : Line} {s : LineState} {p : Nat × Nat} (here : At line s p) :
    Option.Rel (At line) (stepY line s) (up (run line) (rise line) p) := by
  obtain ⟨i, j⟩ := p
  obtain ⟨⟨row, column⟩, point, esp⟩ := here
  obtain ⟨xpoint, ypoint⟩ := Prod.mk.inj point
  simp only [stepY, up]
  have atEnd : s.ypoint = line.yend ↔ j = rise line := by
    rw [ypoint]
    exact along_eq_end column
  rw [esp, dx_eq]
  by_cases test : 2 * err (run line) (rise line) (i, j) ≤ (run line : Int)
  · rw [if_pos test, if_pos test]
    by_cases done : j = rise line
    · rw [if_pos (atEnd.mpr done), if_pos done]
      exact .none
    · rw [if_neg (mt atEnd.mp done), if_neg done, ypoint]
      have inside : j < rise line := Nat.lt_of_le_of_ne column done
      refine .some ⟨⟨row, inside⟩, ?_, ?_⟩
      · exact Prod.ext xpoint (along_succ inside)
      · rw [err_up]
  · rw [if_neg test, if_neg test]
    exact .some ⟨⟨row, column⟩, point, esp⟩

/-- A turn of the loop is a turn of the walk. -/
theorem lineStep_at {line : Line} (lineStyle : LineStyle) {s : LineState} {p : Nat × Nat}
    (here : At line s p) :
    Option.Rel (At line) (lineStep line lineStyle s) (walkStep (run line) (rise line) p) := by
  unfold lineStep walkStep
  have first := stepX_at (s := { s with
    dottedLen := if IsVirtual lineStyle s then 0 else s.dottedLen + 1 }) here
  dsimp only
  generalize stepX line _ = next at first
  generalize right _ _ p = next' at first
  cases first with
  | none => exact .none
  | some there => exact stepY_at there

/-- The dots of a line lie at the points of a walk. -/
theorem exists_walk {line : Line} {lineStyle : LineStyle} {fuel : Nat} {states : List LineState}
    (ends : heads (lineStep line lineStyle) fuel (lineStart line) = some states) :
    ∃ walk, heads (walkStep (run line) (rise line)) fuel (0, 0) = some walk ∧
      states.map LineState.point = walk.map (place line) := by
  have related := heads_related (fun _ _ => lineStep_at lineStyle) fuel (lineStart_at line)
  rw [ends] at related
  cases walked : heads (walkStep (run line) (rise line)) fuel (0, 0) with
  | none =>
      rw [walked] at related
      cases related
  | some walk =>
      rw [walked] at related
      cases related with
      | some both =>
          refine ⟨walk, rfl, ?_⟩
          clear ends walked
          induction both with
          | nil => rfl
          | cons here _ ih => rw [List.map_cons, List.map_cons, here.2.1, ih]

/-- **The loop ends**, with fuel to spare. -/
theorem line_ends (line : Line) (lineStyle : LineStyle) :
    ∃ states, heads (lineStep line lineStyle) (lineFuel line) (lineStart line) = some states := by
  have related := heads_related (fun _ _ => lineStep_at lineStyle) (lineFuel line)
    (lineStart_at line)
  obtain ⟨walk, walked⟩ := walk_ends (run line) (rise line)
  have fuel : lineFuel line = run line + rise line + 1 := by
    simp only [lineFuel]
    rw [dx_eq, dy_eq]
    omega
  rw [fuel, walked] at related
  rw [fuel]
  cases ends : heads (lineStep line lineStyle) (run line + rise line + 1) (lineStart line) with
  | none =>
      rw [ends] at related
      cases related
  | some states => exact ⟨states, rfl⟩

/-! ## The dots of a line -/

/-- Two coordinates differ by at most one. -/
def Near (a b : UInt16) : Prop := a.toNat ≤ b.toNat + 1 ∧ b.toNat ≤ a.toNat + 1

/-- The dots start at the first end point, stay in the box of the end points, go on from dot to
next dot without repeating one, and reach the second end point. -/
structure IsComplete (line : Line) (points : List (UInt16 × UInt16)) : Prop where
  starts : points.head? = some (line.xstart, line.ystart)
  inBox : ∀ p ∈ points, Between line.xstart line.xend p.1 ∧ Between line.ystart line.yend p.2
  distinct : points.Nodup
  adjacent : points.IsChain fun p q => Near p.1 q.1 ∧ Near p.2 q.2
  reaches : (line.xend, line.yend) ∈ points

/-- `Paint_DrawLine` ends, and its dots make a complete line. -/
def Completes (paint : Paint) (line : Line) (lineStyle : LineStyle) : Prop :=
  ∃ fuel states, drawnLine paint line lineStyle fuel = some states ∧
    IsComplete line (states.map LineState.point)

/-- The range check of `Paint_DrawLine`. -/
def OnPicture (paint : Paint) (line : Line) : Prop :=
  line.xstart ≤ paint.width ∧ line.ystart ≤ paint.height ∧ line.xend ≤ paint.width ∧
    line.yend ≤ paint.height

theorem drawnLine_eq {paint : Paint} {line : Line} (onPicture : OnPicture paint line)
    (lineStyle : LineStyle) (fuel : Nat) :
    drawnLine paint line lineStyle fuel =
      heads (lineStep line lineStyle) fuel (lineStart line) := by
  obtain ⟨xstart, ystart, xend, yend⟩ := onPicture
  apply if_neg
  simp [xstart, ystart, xend, yend]

/-- The last dot is drawn at the corner of the walk. -/
theorem reaches_iff {line : Line} {lineStyle : LineStyle} {fuel : Nat} {states : List LineState}
    (ends : heads (lineStep line lineStyle) fuel (lineStart line) = some states) :
    (line.xend, line.yend) ∈ states.map LineState.point ↔
      run line ≤ rise line ∨ 2 * rise line < run line := by
  obtain ⟨walk, walked, points⟩ := exists_walk ends
  have inBox := walk_inBox walked
  rw [points, ← corner_mem_iff walked, List.mem_map]
  constructor
  · rintro ⟨⟨i, j⟩, member, atEnd⟩
    obtain ⟨row, column⟩ := inBox _ member
    obtain ⟨xend, yend⟩ := Prod.mk.inj atEnd
    obtain rfl := (along_eq_end row).mp xend
    obtain rfl := (along_eq_end column).mp yend
    exact member
  · intro corner
    exact ⟨_, corner, Prod.ext ((along_eq_end (Nat.le_refl _)).mpr rfl)
      ((along_eq_end (Nat.le_refl _)).mpr rfl)⟩

/-- **Lines are complete**, but for those that rise at least half as much as they run and
less than that. -/
theorem line_complete_iff {paint : Paint} {line : Line} (onPicture : OnPicture paint line)
    (lineStyle : LineStyle) :
    Completes paint line lineStyle ↔ run line ≤ rise line ∨ 2 * rise line < run line := by
  constructor
  · rintro ⟨fuel, states, ends, complete⟩
    rw [drawnLine_eq onPicture] at ends
    exact (reaches_iff ends).mp complete.reaches
  · intro apart
    obtain ⟨states, ends⟩ := line_ends line lineStyle
    obtain ⟨walk, walked, points⟩ := exists_walk ends
    have inBox := walk_inBox walked
    refine ⟨_, states, (drawnLine_eq onPicture _ _).trans ends, ?_⟩
    refine ⟨?_, ?_, ?_, ?_, (reaches_iff ends).mpr apart⟩
    · rw [List.head?_map, heads_head ends]
      rfl
    · rw [points]
      intro p member
      obtain ⟨q, inWalk, rfl⟩ := List.mem_map.mp member
      exact ⟨along_between (inBox q inWalk).1, along_between (inBox q inWalk).2⟩
    · rw [points]
      refine (walk_nodup walked).map_on ?_
      intro p member q member' same
      obtain ⟨sameX, sameY⟩ := Prod.mk.inj same
      exact Prod.ext (along_inj (inBox p member).1 (inBox q member').1 sameX)
        (along_inj (inBox p member).2 (inBox q member').2 sameY)
    · rw [points, List.isChain_map]
      refine (heads_chain walked).imp_of_mem_imp ?_
      intro p q _ member next
      obtain ⟨⟨row, row'⟩, ⟨column, column'⟩, -⟩ := walkStep_neighbour next
      exact ⟨along_near (inBox q member).1 row row', along_near (inBox q member).2 column column'⟩

/-- The diagonal of a small square. -/
theorem line_complete_diagonal :
    Completes (paintNewImage [0, 0, 0] 3 3 rotate0 white) ⟨0, 0, 2, 2⟩ .solid ↔
      run ⟨0, 0, 2, 2⟩ ≤ rise ⟨0, 0, 2, 2⟩ ∨ 2 * rise ⟨0, 0, 2, 2⟩ < run ⟨0, 0, 2, 2⟩ :=
  line_complete_iff ⟨by decide, by decide, by decide, by decide⟩ .solid

/-- The line from `(0, 0)` to `(2, 1)` is drawn without its last dot. -/
theorem line_misses_end :
    ¬ ∀ (paint : Paint) (line : Line), OnPicture paint line →
      ∀ lineStyle, Completes paint line lineStyle := by
  intro complete
  have onPicture : OnPicture (paintNewImage [0, 0] 3 2 rotate0 white) ⟨0, 0, 2, 1⟩ :=
    ⟨by decide, by decide, by decide, by decide⟩
  obtain ⟨fuel, states, ends, complete⟩ := complete _ _ onPicture .solid
  rw [drawnLine_eq onPicture] at ends
  exact absurd ((reaches_iff ends).mp complete.reaches) (by decide)

end EinkLiteOS.Device
