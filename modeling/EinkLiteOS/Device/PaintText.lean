/-
# Device.PaintText -- drawing a text

`Paint_DrawString_CN` walks over a text in UTF-8, one byte at a time for ASCII and three at
a time for everything else, and looks every character up in the table of its font.  The
text lies in memory with a NUL behind it; a read behind the NUL is out of the string.

A text of characters of one and three bytes is walked from character to character up to its
NUL.  A character of two or four bytes leads the walk into the middle of a character, past
one, or past the NUL (`text_walk_iff`).
-/
import EinkLiteOS.Theory.Utf8
import EinkLiteOS.Device.PaintPixel

namespace EinkLiteOS.Device

open EinkLiteOS.Theory.Utf8

set_option autoImplicit false

def fontBackground : UInt16 := white

/-- `CH_CN`: three bytes of UTF-8, and the memory from the first byte of the matrix on. -/
structure ChCn where
  index0 : UInt8
  index1 : UInt8
  index2 : UInt8
  matrix : Nat → UInt8

/-- `cFONT`, with the entries of its table. -/
structure CFont where
  table : List ChCn
  asciiWidth : UInt16
  width : UInt16
  height : UInt16

/-- A pixel of a character, where it is given by `int`s. -/
def setPixelAt (paint : Paint) (x y : Int32) (color : UInt16) : Paint :=
  paintSetPixel paint (UInt16.ofInt x.toInt) (UInt16.ofInt y.toInt) color

/-- The loops over the matrix of a character, `ptr` the byte they are at. -/
def drawMatrix (paint : Paint) (font : CFont) (glyph : ChCn) (x y : Int32)
    (foreground background : UInt16) : Paint :=
  ((List.range font.height.toNat).foldl (fun (state : Nat × Paint) j =>
    let (ptr, paint) := (List.range font.width.toNat).foldl (fun (state : Nat × Paint) i =>
      let (ptr, paint) := state
      let lit := glyph.matrix ptr &&& (0x80 >>> UInt8.ofNat (i % 8)) ≠ 0
      let x := x + Int32.ofNat i
      let y := y + Int32.ofNat j
      let paint :=
        if lit then setPixelAt paint x y foreground
        else if fontBackground = background then paint
        else setPixelAt paint x y background
      (if i % 8 = 7 then ptr + 1 else ptr, paint)) state
    (if font.width.toNat % 8 ≠ 0 then ptr + 1 else ptr, paint)) (0, paint)).2

/-- The entry of an ASCII character, by its byte alone. -/
def matchAscii (table : List ChCn) (byte : UInt8) : Option ChCn :=
  table.find? fun entry => byte = entry.index0

/-- The entry of the three bytes at `p`, each read only when the ones before it match; `none`
is a read out of the string. -/
def matchCn (mem : List UInt8) (p : Nat) : List ChCn → Option (Option ChCn)
  | [] => some none
  | entry :: rest => do
      let byte0 ← mem[p]?
      if byte0 ≠ entry.index0 then matchCn mem p rest
      else
        let byte1 ← mem[p + 1]?
        if byte1 ≠ entry.index1 then matchCn mem p rest
        else
          let byte2 ← mem[p + 2]?
          if byte2 ≠ entry.index2 then matchCn mem p rest else some (some entry)

/-- The variables of the loop of `Paint_DrawString_CN`: the place of `p_text` in the string,
`x`, and the picture. -/
structure TextState where
  p : Nat
  x : Int32
  paint : Paint

/-- The arguments of a call that do not change. -/
structure TextCall where
  font : CFont
  ystart : UInt16
  foreground : UInt16
  background : UInt16

/-- A character drawn, if the table has it. -/
def drawEntry (call : TextCall) (s : TextState) : Option ChCn → Paint
  | none => s.paint
  | some entry =>
      drawMatrix s.paint call.font entry s.x (Int32.ofNat call.ystart.toNat) call.foreground
        call.background

/-- A turn of the loop: `none` for a read out of the string, `some none` at the NUL. -/
def textTurn (call : TextCall) (mem : List UInt8) (s : TextState) : Option (Option TextState) := do
  let byte ← mem[s.p]?
  if byte = 0 then return none
  else if byte ≤ 0x7F then
    return some
      { p := s.p + 1
        x := s.x + Int32.ofNat call.font.asciiWidth.toNat
        paint := drawEntry call s (matchAscii call.font.table byte) }
  else
    let entry ← matchCn mem s.p call.font.table
    return some
      { p := s.p + 3
        x := s.x + Int32.ofNat call.font.width.toNat
        paint := drawEntry call s entry }

/-- The states at the heads of the loop, the last of them at the NUL: `none` when the walk
leaves the string, or when the fuel is out. -/
def textHeads (call : TextCall) (mem : List UInt8) : Nat → TextState → Option (List TextState)
  | 0, _ => none
  | fuel + 1, s =>
      match textTurn call mem s with
      | none => none
      | some none => some [s]
      | some (some next) => (textHeads call mem fuel next).map (s :: ·)

/-- A text in memory. -/
def cText (text : List Char) : List UInt8 := encode text ++ [0]

theorem cText_cons (front : List UInt8) (c : Char) (rest : List Char) :
    front ++ cText (c :: rest) = front ++ String.utf8EncodeChar c ++ cText rest := by
  simp [cText]

/-- The state before the loop. -/
def textStart (xstart : UInt16) (paint : Paint) : TextState :=
  { p := 0, x := Int32.ofNat xstart.toNat, paint }

/-- `Paint_DrawString_CN`.  Every turn goes on by at least a byte, so the length of the string
is fuel enough. -/
def paintDrawStringCn (paint : Paint) (xstart : UInt16) (mem : List UInt8) (call : TextCall) :
    Option Paint := do
  let heads ← textHeads call mem (mem.length + 1) (textStart xstart paint)
  (heads.getLast?).map TextState.paint

theorem length_drawMatrix (paint : Paint) (font : CFont) (glyph : ChCn) (x y : Int32)
    (foreground background : UInt16) :
    (drawMatrix paint font glyph x y foreground background).image.length =
      paint.image.length := by
  -- the pointer goes along and stores nothing
  have keeps : ∀ {step : Nat × Paint → Nat → Nat × Paint},
      (∀ state k, (step state k).2.image.length = state.2.image.length) →
        ∀ (list : List Nat) state, (list.foldl step state).2.image.length =
          state.2.image.length := by
    intro step kept list
    induction list with
    | nil => exact fun _ => rfl
    | cons k rest ih => exact fun state => (ih _).trans (kept state k)
  simp only [drawMatrix, setPixelAt]
  apply keeps
  intro state j
  dsimp only
  apply keeps
  intro state i
  grind [length_paintSetPixel]

/-! ## What a turn does -/

/-- How far a character moves the column on. -/
def advance (font : CFont) (c : Char) : Nat :=
  if c.utf8Size = 1 then font.asciiWidth.toNat else font.width.toNat

/-- How far the walk goes on at a character. -/
def stride (c : Char) : Nat := if c.utf8Size = 1 then 1 else 3

/-- Three bytes of the string can be compared. -/
theorem matchCn_isSome {mem : List UInt8} {p : Nat} (room : p + 2 < mem.length)
    (table : List ChCn) : ∃ entry, matchCn mem p table = some entry := by
  have read : ∀ k ≤ 2, ∃ byte, mem[p + k]? = some byte := by
    intro k small
    exact ⟨_, List.getElem?_eq_getElem (by omega)⟩
  obtain ⟨byte0, read0⟩ := read 0 (by decide)
  obtain ⟨byte1, read1⟩ := read 1 (by decide)
  obtain ⟨byte2, read2⟩ := read 2 (by decide)
  induction table with
  | nil => exact ⟨none, rfl⟩
  | cons entry rest ih =>
      obtain ⟨found, later⟩ := ih
      rw [Nat.add_zero] at read0
      simp only [matchCn, read0, read1, read2, Option.bind_eq_bind, Option.bind_some, later]
      split
      · exact ⟨found, rfl⟩
      · split
        · exact ⟨found, rfl⟩
        · split
          · exact ⟨found, rfl⟩
          · exact ⟨some entry, rfl⟩

/-- At the NUL the walk stops. -/
theorem textTurn_nul (call : TextCall) {front : List UInt8} {s : TextState}
    (here : s.p = front.length) : textTurn call (front ++ cText []) s = some none := by
  simp only [textTurn, cText]
  rw [here]
  simp

/-- At a character it goes on by its stride. -/
theorem textTurn_char (call : TextCall) (rest : List Char) {front : List UInt8} {s : TextState}
    {c : Char} (here : s.p = front.length) (notNul : c.val ≠ 0) :
    ∃ paint, textTurn call (front ++ cText (c :: rest)) s =
      some (some
        { p := s.p + stride c, x := s.x + Int32.ofNat (advance call.font c), paint }) := by
  obtain ⟨b, more, bytes, ascii, notZero, length⟩ := exists_lead c
  have lead : (front ++ cText (c :: rest))[s.p]? = some b := by
    rw [here, cText, encode_cons, bytes]
    simp
  simp only [textTurn, stride, advance]
  simp only [lead, Option.bind_eq_bind, Option.bind_some, if_neg (notZero notNul)]
  by_cases one : c.utf8Size = 1
  · rw [if_pos (ascii.mpr one)]
    simp only [if_pos one]
    exact ⟨_, rfl⟩
  · rw [if_neg (mt ascii.mp one)]
    -- a second byte, and at least the NUL behind it
    have room : s.p + 2 < (front ++ cText (c :: rest)).length := by
      have := congrArg List.length bytes
      simp only [cText, encode_cons, List.length_append, List.length_cons, List.length_nil] at *
      omega
    obtain ⟨entry, found⟩ := matchCn_isSome room call.font.table
    simp only [found, Option.bind_some, if_neg one]
    exact ⟨_, rfl⟩

theorem length_textTurn {call : TextCall} {mem : List UInt8} {s next : TextState}
    (turn : textTurn call mem s = some (some next)) :
    next.paint.image.length = s.paint.image.length := by
  have entry : ∀ found, (drawEntry call s found).image.length = s.paint.image.length := by
    intro found
    cases found with
    | none => rfl
    | some found => exact length_drawMatrix ..
  simp only [textTurn] at turn
  simp only [Option.bind_eq_bind, Option.bind_eq_some_iff] at turn
  obtain ⟨byte, -, turn⟩ := turn
  split at turn
  · cases turn
  · split at turn
    · cases turn
      exact entry _
    · obtain ⟨found, -, turn⟩ := Option.bind_eq_some_iff.mp turn
      cases turn
      exact entry _

/-! ## The walk -/

/-- Where the characters of a text start, in the string and on the picture. -/
def starts (font : CFont) : Nat → Nat → List Char → List (Nat × Nat)
  | _, _, [] => []
  | p, x, c :: rest => (p, x) :: starts font (p + c.utf8Size) (x + advance font c) rest

/-- The state is the head of the loop at a character. -/
def StartsAt (s : TextState) (start : Nat × Nat) : Prop := s.p = start.1 ∧ s.x.toInt = start.2

/-- From `s` on, the walk stays in the string, is at each character of the rest of the text in
turn, and stops at the NUL. -/
def Walks (call : TextCall) (mem : List UInt8) (s : TextState) (x : Nat) (text : List Char) :
    Prop :=
  ∃ fuel heads last, textHeads call mem fuel s = some (heads ++ [last]) ∧
    last.p = s.p + (encode text).length ∧
      List.Forall₂ StartsAt heads (starts call.font s.p x text)

theorem textHeads_next {call : TextCall} {mem : List UInt8} {s next : TextState}
    (turn : textTurn call mem s = some (some next)) (fuel : Nat) :
    textHeads call mem (fuel + 1) s = (textHeads call mem fuel next).map (s :: ·) := by
  rw [textHeads, turn]

theorem textHeads_head {call : TextCall} {mem : List UInt8} {fuel : Nat} {s : TextState}
    {heads : List TextState} (walked : textHeads call mem fuel s = some heads) :
    heads.head? = some s := by
  cases fuel with
  | zero => cases walked
  | succ fuel =>
      cases turn : textTurn call mem s with
      | none =>
          rw [textHeads, turn] at walked
          cases walked
      | some more =>
          cases more with
          | none =>
              rw [textHeads, turn] at walked
              cases walked
              rfl
          | some next =>
              rw [textHeads_next turn, Option.map_eq_some_iff] at walked
              obtain ⟨rest, -, rfl⟩ := walked
              rfl

theorem toInt_ofNat_iff (x : Nat) : (Int32.ofNat x).toInt = x ↔ x < 2 ^ 31 := by
  constructor
  · intro same
    have := Int32.toInt_lt (Int32.ofNat x)
    omega
  · intro small
    exact Int32.toInt_ofNat_of_lt small

/-- One character of a walk. -/
theorem walks_cons (call : TextCall) (rest : List Char) {front : List UInt8} {s : TextState}
    {x : Nat} {c : Char} (here : s.p = front.length) (column : s.x = Int32.ofNat x)
    (notNul : c.val ≠ 0) :
    ∃ next : TextState, next.x = Int32.ofNat (x + advance call.font c) ∧
      next.p = s.p + stride c ∧
      (Walks call (front ++ cText (c :: rest)) s x (c :: rest) ↔
        x < 2 ^ 31 ∧ stride c = c.utf8Size ∧
          Walks call (front ++ cText (c :: rest)) next (x + advance call.font c) rest) := by
  obtain ⟨paint, turn⟩ := textTurn_char call rest here notNul
  refine ⟨{ p := s.p + stride c, x := s.x + Int32.ofNat (advance call.font c), paint }, ?_, rfl, ?_⟩
  · rw [Int32.ofNat_add, ← column]
  have length := String.length_utf8EncodeChar c
  constructor
  · rintro ⟨fuel, heads, last, walked, atNul, related⟩
    cases fuel with
    | zero => cases walked
    | succ fuel =>
        rw [textHeads_next turn, Option.map_eq_some_iff] at walked
        obtain ⟨tail, walked, split⟩ := walked
        cases related with
        | @cons first _ heads' _ firstStarts othersStart =>
            obtain ⟨rfl, rfl⟩ := List.cons.inj split
            have small : x < 2 ^ 31 := (toInt_ofNat_iff x).mp (column ▸ firstStarts.2)
            -- the next head is the next character, or the NUL
            have whole : stride c = c.utf8Size := by
              have nextHead := textHeads_head walked
              cases rest with
              | nil =>
                  cases othersStart
                  have same : last = _ := Option.some.inj nextHead
                  rw [same, encode_cons, List.length_append, length] at atNul
                  simpa using atNul
              | cons d rest =>
                  cases othersStart with
                  | cons secondStarts _ =>
                      have same := Option.some.inj nextHead
                      rw [same] at secondStarts
                      exact Nat.add_left_cancel secondStarts.1
            refine ⟨small, whole, fuel, heads', last, walked, ?_, ?_⟩
            · rw [atNul, whole, encode_cons, List.length_append, length, Nat.add_assoc]
            · rwa [whole]
  · rintro ⟨small, whole, fuel, heads, last, walked, atNul, related⟩
    refine ⟨fuel + 1, s :: heads, last, ?_, ?_, ?_⟩
    · rw [textHeads_next turn, walked]
      rfl
    · rw [atNul, whole, encode_cons, List.length_append, length, Nat.add_assoc]
    · refine .cons ⟨rfl, ?_⟩ ?_
      · rw [column]
        exact (toInt_ofNat_iff x).mpr small
      · rwa [whole] at related

theorem stride_eq_iff (c : Char) : stride c = c.utf8Size ↔ c.utf8Size = 1 ∨ c.utf8Size = 3 := by
  simp only [stride]
  split <;> omega

/-- A walk from the start of a character on. -/
theorem walks_iff (call : TextCall) {text : List Char} (noNul : ∀ c ∈ text, c.val ≠ 0)
    (front : List UInt8) {s : TextState} {x : Nat} (here : s.p = front.length)
    (column : s.x = Int32.ofNat x) :
    Walks call (front ++ cText text) s x text ↔
      (∀ c ∈ text, c.utf8Size = 1 ∨ c.utf8Size = 3) ∧
        ∀ start ∈ starts call.font s.p x text, start.2 < 2 ^ 31 := by
  induction text generalizing front s x with
  | nil =>
      constructor
      · intro _
        exact ⟨List.forall_mem_nil _, List.forall_mem_nil _⟩
      · intro _
        refine ⟨1, [], s, ?_, rfl, .nil⟩
        rw [textHeads, textTurn_nul call here]
        rfl
  | cons c rest ih =>
      obtain ⟨notNul, noNul⟩ := List.forall_mem_cons.mp noNul
      obtain ⟨next, columnNext, place, walks⟩ := walks_cons call rest here column notNul
      rw [walks, List.forall_mem_cons, starts, List.forall_mem_cons, ← stride_eq_iff]
      -- the rest of the walk matters only when the character was passed as a whole
      have later : stride c = c.utf8Size → (Walks call (front ++ cText (c :: rest)) next
          (x + advance call.font c) rest ↔ (∀ c ∈ rest, c.utf8Size = 1 ∨ c.utf8Size = 3) ∧
            ∀ start ∈ starts call.font (s.p + c.utf8Size) (x + advance call.font c) rest,
              start.2 < 2 ^ 31) := by
        intro whole
        have placed : next.p = s.p + c.utf8Size := place.trans (congrArg _ whole)
        rw [cText_cons, ← placed]
        refine ih noNul _ ?_ columnNext
        rw [placed, here, List.length_append, String.length_utf8EncodeChar]
      constructor
      · rintro ⟨small, whole, onward⟩
        obtain ⟨sizes, columns⟩ := (later whole).mp onward
        exact ⟨⟨whole, sizes⟩, small, columns⟩
      · rintro ⟨⟨whole, sizes⟩, small, columns⟩
        exact ⟨small, whole, (later whole).mpr ⟨sizes, columns⟩⟩

/-- The columns of all characters are below a bound when the last one is. -/
theorem starts_below {font : CFont} {bound p x : Nat} {text : List Char} (first : x < bound) :
    (∀ start ∈ starts font p x text, start.2 < bound) ↔
      x + (text.dropLast.map (advance font)).sum < bound := by
  induction text generalizing p x with
  | nil => simpa [starts] using first
  | cons c rest ih =>
      rw [starts, List.forall_mem_cons]
      cases rest with
      | nil => simp [starts]
      | cons d rest =>
          rw [List.dropLast_cons_cons, List.map_cons, List.sum_cons, ← Nat.add_assoc]
          by_cases second : x + advance font c < bound
          · rw [ih second]
            exact and_iff_right first
          · constructor
            · rintro ⟨-, columns⟩
              rw [starts, List.forall_mem_cons] at columns
              exact absurd columns.1 second
            · intro last
              omega

/-- **The walk over a text ends at its NUL**, at every character in turn and at its column,
exactly when all characters are of one or three bytes and the last one starts before the
columns leave the range of an `int`. -/
theorem text_walk_iff (call : TextCall) (paint : Paint) (xstart : UInt16) {text : List Char}
    (noNul : ∀ c ∈ text, c.val ≠ 0) :
    Walks call (cText text) (textStart xstart paint) xstart.toNat text ↔
      (∀ c ∈ text, c.utf8Size = 1 ∨ c.utf8Size = 3) ∧
        xstart.toNat + (text.dropLast.map (advance call.font)).sum < 2 ^ 31 := by
  have bounded := xstart.toNat_lt
  have first : xstart.toNat < 2 ^ 31 := by omega
  rw [← starts_below first]
  exact walks_iff call noNul [] rfl rfl

/-- A font without entries. -/
def emptyFont : CFont := { table := [], asciiWidth := 17, width := 32, height := 41 }

/-- A font with the one character `苏`, all of it painted. -/
def oneGlyphFont : CFont :=
  { emptyFont with
    table := [{ index0 := 0xE8, index1 := 0x8B, index2 := 0x8F, matrix := fun _ => 0xFF }] }

/-- Two characters of the first picture, the first one in the font. -/
theorem text_walk_two :
    let call : TextCall :=
      { font := oneGlyphFont, ystart := 15, foreground := black, background := white }
    let paint := paintNewImage [0] 8 1 rotate0 white
    Walks call (cText ['苏', 'A']) (textStart 45 paint) 45 ['苏', 'A'] ↔
      (∀ c ∈ ['苏', 'A'], c.utf8Size = 1 ∨ c.utf8Size = 3) ∧
        (45 : UInt16).toNat + (['苏', 'A'].dropLast.map (advance call.font)).sum < 2 ^ 31 := by
  intro call paint
  have noNul : ∀ c ∈ ['苏', 'A'], c.val ≠ 0 :=
    List.forall_mem_cons.mpr ⟨by decide, List.forall_mem_singleton.mpr (by decide)⟩
  exact text_walk_iff call paint 45 noNul

/-- A character of two bytes at the end: the walk goes past the NUL. -/
theorem two_byte_character_lost :
    ¬ ∀ (call : TextCall) (paint : Paint) (xstart : UInt16) (text : List Char),
      (∀ c ∈ text, c.val ≠ 0) →
        Walks call (cText text) (textStart xstart paint) xstart.toNat text := by
  intro walks
  let call : TextCall :=
    { font := emptyFont, ystart := 0, foreground := black, background := white }
  have noNul : ∀ c ∈ ['é'], c.val ≠ 0 := List.forall_mem_singleton.mpr (by decide)
  have walked := walks call (paintNewImage [0] 8 1 rotate0 white) 0 ['é'] noNul
  have sizes := ((walks_iff call noNul [] rfl rfl).mp walked).1
  exact absurd (sizes 'é' List.mem_cons_self) (by decide)

/-! ## The text on the picture -/

/-- Fuel enough for a text of characters of one and three bytes. -/
theorem exists_heads (call : TextCall) {text : List Char} (noNul : ∀ c ∈ text, c.val ≠ 0)
    (sizes : ∀ c ∈ text, stride c = c.utf8Size) (front : List UInt8) {s : TextState}
    (here : s.p = front.length) {fuel : Nat} (enough : text.length < fuel) :
    ∃ heads, textHeads call (front ++ cText text) fuel s = some heads := by
  induction text generalizing front s fuel with
  | nil =>
      cases fuel with
      | zero => cases enough
      | succ fuel => exact ⟨[s], by rw [textHeads, textTurn_nul call here]⟩
  | cons c rest ih =>
      cases fuel with
      | zero => cases enough
      | succ fuel =>
          obtain ⟨notNul, noNul⟩ := List.forall_mem_cons.mp noNul
          obtain ⟨whole, sizes⟩ := List.forall_mem_cons.mp sizes
          obtain ⟨paint, turn⟩ := textTurn_char call rest here notNul
          rw [cText_cons] at *
          have next : s.p + stride c = (front ++ String.utf8EncodeChar c).length := by
            rw [List.length_append, String.length_utf8EncodeChar, whole, here]
          obtain ⟨heads, walked⟩ := ih noNul sizes _
            (s := { p := s.p + stride c, x := s.x + Int32.ofNat (advance call.font c), paint })
            next (Nat.lt_of_succ_lt_succ enough)
          exact ⟨s :: heads, by rw [textHeads_next turn, walked, Option.map_some]⟩

/-- The walk draws into the buffer it is given. -/
theorem length_textHeads {call : TextCall} {mem : List UInt8} {fuel : Nat} {s : TextState}
    {heads : List TextState} (walked : textHeads call mem fuel s = some heads) :
    ∀ head ∈ heads, head.paint.image.length = s.paint.image.length := by
  induction fuel generalizing s heads with
  | zero => cases walked
  | succ fuel ih =>
      cases turn : textTurn call mem s with
      | none =>
          rw [textHeads, turn] at walked
          cases walked
      | some more =>
          cases more with
          | none =>
              rw [textHeads, turn] at walked
              cases walked
              exact List.forall_mem_singleton.mpr rfl
          | some next =>
              rw [textHeads_next turn, Option.map_eq_some_iff] at walked
              obtain ⟨rest, walked, rfl⟩ := walked
              refine List.forall_mem_cons.mpr ⟨rfl, fun head member => ?_⟩
              rw [ih walked head member, length_textTurn turn]

/-- **A text of characters of one and three bytes is drawn**, into the buffer it is given. -/
theorem exists_paintDrawStringCn (paint : Paint) (xstart : UInt16) (call : TextCall)
    {text : List Char} (noNul : ∀ c ∈ text, c.val ≠ 0)
    (sizes : ∀ c ∈ text, stride c = c.utf8Size) :
    ∃ drawn, paintDrawStringCn paint xstart (cText text) call = some drawn ∧
      drawn.image.length = paint.image.length := by
  have enough : text.length < (cText text).length + 1 := by
    have := length_le_encode text
    rw [cText, List.length_append]
    omega
  obtain ⟨heads, walked⟩ := exists_heads call noNul sizes [] (s := textStart xstart paint) rfl
    enough
  have walked' : textHeads call (cText text) ((cText text).length + 1) (textStart xstart paint) =
      some heads := walked
  cases last : heads.getLast? with
  | none =>
      rw [List.getLast?_eq_none_iff] at last
      subst last
      cases textHeads_head walked
  | some final =>
      refine ⟨final.paint, ?_, length_textHeads walked final (List.mem_of_getLast? last)⟩
      simp only [paintDrawStringCn]
      rw [walked', Option.bind_eq_bind, Option.bind_some, last]
      rfl

end EinkLiteOS.Device
