/-
# Tools.FrameText -- the packed frames as text

`generate_hex_frames_file` and `generate_c_file` of `tools/image_frame_packer.py`, as far
as they write a frame's elements, and what such text denotes to its readers: two
hexadecimal digits for each byte of a line, and the constants of a `uint8_t` initialiser.

The packet numbers are Python integers, and no step of the packer checks that they are
bytes, so all this holds up to 255 packets (`emitsBytes_iff`).
-/
import EinkLiteOS.Tools.FramePacker
import Mathlib.Data.List.Nodup

namespace EinkLiteOS.Tools

open EinkLiteOS.Theory

set_option autoImplicit false

/-! ## The writers -/

/-- `{n:02X}` -/
def hexFormat (n : Nat) : List Char := ((Nat.toDigits 16 n).map Char.toUpper).leftpad 2 '0'

/-- `{n:02d}` -/
def decFormat (n : Nat) : List Char := (Nat.toDigits 10 n).leftpad 2 '0'

/-- `hex_str` of `generate_hex_frames_file`. -/
def hexStr (frame : List Nat) : List Char := frame.flatMap hexFormat

/-- `generate_hex_frames_file(image_name, frames, output_path)`, line by line. -/
def generateHexFramesFile (frames : List (List Nat)) : List (List Char) :=
  frames.mapIdx fun i frame =>
    "Frame ".toList ++ decFormat (i + 1) ++ ": ".toList ++ hexStr frame ++ ['\n']

/-- `0x{byte:02X}` -/
def hexConstant (n : Nat) : List Char := "0x".toList ++ hexFormat n

/-- The line of up to 16 elements from `j` on, in `generate_c_file`. -/
def initialiserLine (frame : List Nat) (j : Nat) : List Char :=
  "    ".toList ++ ", ".toList.intercalate (((frame.drop j).take 16).map hexConstant) ++
    (if j + 16 < frame.length then [','] else []) ++ ['\n']

/-- The initialiser that `generate_c_file` writes for a frame, between its braces. -/
def initialiser (frame : List Nat) : List Char :=
  (List.range ((frame.length + 15) / 16)).flatMap fun k => initialiserLine frame (16 * k)

/-! ## What the text denotes -/

/-- The value of a hexadecimal digit. -/
def hexValue (c : Char) : Option Nat :=
  if '0' ≤ c ∧ c ≤ '9' then some (c.toNat - '0'.toNat)
  else if 'A' ≤ c ∧ c ≤ 'F' then some (c.toNat - 'A'.toNat + 10)
  else if 'a' ≤ c ∧ c ≤ 'f' then some (c.toNat - 'a'.toNat + 10)
  else none

/-- Digits read pair by pair. -/
def readPairs : List Char → Option (List Nat)
  | [] => some []
  | [_] => none
  | a :: b :: rest => do
      let high ← hexValue a
      let low ← hexValue b
      let frame ← readPairs rest
      return (high * 16 + low) :: frame

/-- A line read behind its label. -/
def readHexLine (line : List Char) : Option (List Nat) :=
  readPairs (((line.dropWhile (· ≠ ':')).drop 2).takeWhile (· ≠ '\n'))

/-- The value of a hexadecimal constant. -/
def readConstant : List Char → Option Nat
  | '0' :: 'x' :: a :: digits =>
      (a :: digits).foldlM (fun v c => (hexValue c).map fun digit => v * 16 + digit) 0
  | _ => none

def isBlank (c : Char) : Bool := c = ' ' || c = '\n'

/-- The array a list of constants initialises: each is converted to `uint8_t`. -/
def readInitialiser (text : List Char) : Option (List Nat) :=
  ((text.filter (!isBlank ·)).splitOn ',').mapM fun c => (readConstant c).map (· % 256)

/-- The packer emits bytes, and what is written of them denotes them. -/
structure EmitsBytes (imageData : List Nat) : Prop where
  bytes : ∀ frame ∈ packImageToFrames imageData, ∀ element ∈ frame, element ≤ 255
  hexLines : (generateHexFramesFile (packImageToFrames imageData)).map readHexLine =
    (packImageToFrames imageData).map some
  initialisers : ∀ frame ∈ packImageToFrames imageData,
    readInitialiser (initialiser frame) = some frame
  /-- No two frames have the same packet number byte. -/
  numbers : ((packImageToFrames imageData).map fun frame => frame[7]?.map (· % 256)).Nodup

/-! ## Hexadecimal lines -/

/-- A byte is two digits. -/
theorem hexFormat_byte {n : Nat} (byte : n < 256) :
    (hexFormat n).map hexValue = [some (n / 16), some (n % 16)] := by
  revert n
  decide +kernel

theorem hexFormat_pair {n : Nat} (byte : n < 256) :
    ∃ a b, hexFormat n = [a, b] ∧ hexValue a = some (n / 16) ∧ hexValue b = some (n % 16) := by
  have values := hexFormat_byte byte
  obtain ⟨a, rest, split, high, values⟩ := List.map_eq_cons_iff.mp values
  obtain ⟨b, rest', split', low, values⟩ := List.map_eq_cons_iff.mp values
  obtain rfl := List.map_eq_nil_iff.mp values
  exact ⟨a, b, by rw [split, split'], high, low⟩

/-- **What is written of a frame of bytes is read pair by pair.** -/
theorem readPairs_hexStr {frame : List Nat} (bytes : ∀ n ∈ frame, n < 256) :
    readPairs (hexStr frame) = some frame := by
  induction frame with
  | nil => rfl
  | cons n rest ih =>
      obtain ⟨a, b, pair, high, low⟩ := hexFormat_pair (bytes n List.mem_cons_self)
      have later := ih fun m member => bytes m (List.mem_cons_of_mem n member)
      have value : n / 16 * 16 + n % 16 = n := by omega
      simp only [hexStr] at later ⊢
      rw [List.flatMap_cons, pair, List.cons_append, List.cons_append, List.nil_append, readPairs,
        high, low, later]
      simp only [Option.bind_eq_bind, Option.bind_some, value]
      rfl

/-- Only hexadecimal digits are written. -/
theorem notMem_hexFormat {n : Nat} (byte : n < 256) {c : Char} (noDigit : hexValue c = none) :
    c ∉ hexFormat n := by
  obtain ⟨a, b, pair, high, low⟩ := hexFormat_pair byte
  rw [pair]
  intro member
  simp only [List.mem_cons, List.not_mem_nil, or_false] at member
  rcases member with rfl | rfl
  · rw [high] at noDigit
    cases noDigit
  · rw [low] at noDigit
    cases noDigit

theorem newline_notMem_hexFormat {n : Nat} (byte : n < 256) : '\n' ∉ hexFormat n :=
  notMem_hexFormat byte (by decide)

theorem colon_notMem_decFormat (n : Nat) : ':' ∉ decFormat n := by
  simp only [decFormat, List.leftpad]
  intro member
  rcases List.mem_append.mp member with padding | digits
  · exact absurd (List.eq_of_mem_replicate padding) (by decide)
  · exact absurd (Nat.isDigit_of_mem_toDigits (by decide) (by decide) digits) (by decide)

/-- A line is read behind its label. -/
theorem readHexLine_line (i : Nat) {frame : List Nat} (bytes : ∀ n ∈ frame, n < 256) :
    readHexLine ("Frame ".toList ++ decFormat (i + 1) ++ ": ".toList ++ hexStr frame ++ ['\n']) =
      some frame := by
  have label : ∀ c ∈ "Frame ".toList ++ decFormat (i + 1), (decide (c ≠ ':')) = true := by
    intro c member
    rw [decide_eq_true_iff]
    rintro rfl
    rcases List.mem_append.mp member with word | number
    · exact absurd word (by decide)
    · exact colon_notMem_decFormat (i + 1) number
  have hex : ∀ c ∈ hexStr frame, (decide (c ≠ '\n')) = true := by
    intro c member
    rw [decide_eq_true_iff]
    rintro rfl
    obtain ⟨n, inFrame, digit⟩ := List.mem_flatMap.mp member
    exact newline_notMem_hexFormat (bytes n inFrame) digit
  have colon : ": ".toList = [':', ' '] := by decide
  simp only [readHexLine]
  rw [List.append_assoc, List.append_assoc, List.dropWhile_append_of_pos label, colon]
  show readPairs ((hexStr frame ++ ['\n']).takeWhile _) = some frame
  rw [List.takeWhile_append_of_pos hex]
  show readPairs (hexStr frame ++ []) = some frame
  rw [List.append_nil, readPairs_hexStr bytes]

theorem readHexLine_file {frames : List (List Nat)}
    (bytes : ∀ frame ∈ frames, ∀ n ∈ frame, n < 256) :
    (generateHexFramesFile frames).map readHexLine = frames.map some := by
  apply List.ext_getElem?
  intro i
  simp only [generateHexFramesFile]
  rw [List.getElem?_map, List.getElem?_mapIdx, List.getElem?_map]
  cases found : frames[i]? with
  | none => rfl
  | some frame =>
      have line := readHexLine_line i (bytes frame (List.mem_of_getElem? found))
      exact congrArg some line

/-! ## Initialisers -/

/-- A constant: no comma and no blank in it, and its value. -/
theorem hexConstant_byte {n : Nat} (byte : n < 256) :
    ',' ∉ hexConstant n ∧ (hexConstant n).filter (!isBlank ·) = hexConstant n ∧
      readConstant (hexConstant n) = some n := by
  refine ⟨List.not_mem_append (by decide) (notMem_hexFormat byte (by decide)), ?_, ?_⟩
  · simp only [hexConstant]
    rw [List.filter_append]
    refine congrArg _ (List.filter_eq_self.mpr ?_)
    intro c member
    by_contra blank
    have either : c = ' ' ∨ c = '\n' := by
      rw [or_iff_not_imp_left]
      simpa [isBlank] using blank
    rcases either with rfl | rfl
    · exact notMem_hexFormat byte (by decide) member
    · exact notMem_hexFormat byte (by decide) member
  · obtain ⟨a, b, pair, high, low⟩ := hexFormat_pair byte
    have value : n / 16 * 16 + n % 16 = n := by omega
    simp only [hexConstant]
    rw [pair]
    simp [readConstant, high, low, value]

theorem intercalate_append {α : Type} (separator : List α) {xs ys : List (List α)}
    (left : xs ≠ []) (right : ys ≠ []) :
    separator.intercalate (xs ++ ys) =
      separator.intercalate xs ++ separator ++ separator.intercalate ys := by
  induction xs with
  | nil => exact absurd rfl left
  | cons x rest ih =>
      by_cases last : rest = []
      · rw [last, List.singleton_append, List.intercalate_cons_of_ne_nil right,
          List.intercalate_singleton]
      · have more : rest ++ ys ≠ [] := List.append_ne_nil_of_left_ne_nil last _
        rw [List.cons_append, List.intercalate_cons_of_ne_nil more, ih last,
          List.intercalate_cons_of_ne_nil last]
        simp only [List.append_assoc]

/-- Without its blanks, a row of constants is separated by commas alone. -/
theorem filter_row {row : List Nat} (bytes : ∀ n ∈ row, n < 256) :
    (", ".toList.intercalate (row.map hexConstant)).filter (!isBlank ·) =
      [','].intercalate (row.map hexConstant) := by
  induction row with
  | nil => rfl
  | cons n rest ih =>
      have constant := (hexConstant_byte (bytes n List.mem_cons_self)).2.1
      have later := ih fun m member => bytes m (List.mem_cons_of_mem n member)
      by_cases last : rest = []
      · rw [last, List.map_singleton, List.intercalate_singleton, List.intercalate_singleton,
          constant]
      · have more : rest.map hexConstant ≠ [] := fun none => last (List.map_eq_nil_iff.mp none)
        rw [List.map_cons, List.intercalate_cons_of_ne_nil more,
          List.intercalate_cons_of_ne_nil more, List.filter_append, List.filter_append, constant,
          later]
        rfl

/-- The initialiser of a longer frame is its first line and the initialiser of the rest. -/
theorem initialiser_append {first rest : List Nat} (full : first.length = 16) (more : rest ≠ []) :
    initialiser (first ++ rest) =
      "    ".toList ++ ", ".toList.intercalate (first.map hexConstant) ++ [','] ++ ['\n'] ++
        initialiser rest := by
  have count : ((first ++ rest).length + 15) / 16 = (rest.length + 15) / 16 + 1 := by
    rw [List.length_append, full]
    omega
  have positive := List.length_pos_of_ne_nil more
  simp only [initialiser]
  rw [count, List.range_succ_eq_map, List.flatMap_cons, List.flatMap_map]
  congr 1
  · unfold initialiserLine
    rw [Nat.mul_zero, List.drop_zero, ← full, List.take_left, if_pos]
    rw [List.length_append]
    omega
  · apply List.flatMap_congr
    intro k _
    unfold initialiserLine
    have cut : (first ++ rest).drop (16 * (k + 1)) = rest.drop (16 * k) := by
      rw [Nat.mul_succ, Nat.add_comm, ← List.drop_drop, ← full, List.drop_left]
    have inside : 16 * (k + 1) + 16 < (first ++ rest).length ↔ 16 * k + 16 < rest.length := by
      rw [List.length_append, full]
      omega
    simp only [Nat.succ_eq_add_one, cut, inside]

theorem filter_indent : "    ".toList.filter (!isBlank ·) = [] := by decide

theorem filter_comma : [','].filter (!isBlank ·) = [','] := by decide

theorem filter_newline : ['\n'].filter (!isBlank ·) = [] := by decide

/-- **Without its blanks, an initialiser is its constants, separated by commas.** -/
theorem filter_initialiser {frame : List Nat} (bytes : ∀ n ∈ frame, n < 256)
    (nonempty : frame ≠ []) :
    (initialiser frame).filter (!isBlank ·) = [','].intercalate (frame.map hexConstant) := by
  induction length : frame.length using Nat.strong_induction_on generalizing frame with
  | h n ih =>
      by_cases long : 16 < frame.length
      · have full : (frame.take 16).length = 16 := by
          rw [List.length_take]
          omega
        have more : frame.drop 16 ≠ [] := by
          intro none
          have := congrArg List.length none
          rw [List.length_drop, List.length_nil] at this
          omega
        have first : frame.take 16 ≠ [] := by
          intro none
          rw [none] at full
          cases full
        have later := ih (frame.drop 16).length (by rw [List.length_drop]; omega)
          (fun m member => bytes m (List.mem_of_mem_drop member)) more rfl
        have row := filter_row fun m (member : m ∈ frame.take 16) =>
          bytes m (List.mem_of_mem_take member)
        conv => lhs; rw [← List.take_append_drop 16 frame, initialiser_append full more]
        conv => rhs; rw [← List.take_append_drop 16 frame, List.map_append]
        rw [intercalate_append _ (fun none => first (List.map_eq_nil_iff.mp none))
          fun none => more (List.map_eq_nil_iff.mp none)]
        simp only [List.filter_append, row, later, filter_indent, filter_comma, filter_newline,
          List.nil_append, List.append_nil]
      · have positive := List.length_pos_of_ne_nil nonempty
        have one : (frame.length + 15) / 16 = 1 := by omega
        have row := filter_row bytes
        unfold initialiser initialiserLine
        rw [one, List.range_one, List.flatMap_singleton, Nat.mul_zero, List.drop_zero,
          List.take_of_length_le (Nat.le_of_not_lt long), if_neg (by omega)]
        simp only [List.filter_append, row, filter_indent, filter_newline,
          List.nil_append, List.append_nil]

theorem readInitialiser_initialiser {frame : List Nat} (bytes : ∀ n ∈ frame, n < 256)
    (nonempty : frame ≠ []) : readInitialiser (initialiser frame) = some frame := by
  simp only [readInitialiser]
  rw [filter_initialiser bytes nonempty, List.splitOn_intercalate]
  · rw [List.mapM_map]
    clear nonempty
    induction frame with
    | nil => rfl
    | cons n rest ih =>
        have byte := bytes n List.mem_cons_self
        have constant := (hexConstant_byte byte).2.2
        rw [List.mapM_cons, ih fun m member => bytes m (List.mem_cons_of_mem n member)]
        simp only [Function.comp_apply, constant, Option.map_some, Nat.mod_eq_of_lt byte]
        rfl
  · intro constant member
    obtain ⟨n, inFrame, rfl⟩ := List.mem_map.mp member
    exact (hexConstant_byte (bytes n inFrame)).1
  · exact fun none => nonempty (List.map_eq_nil_iff.mp none)

/-! ## Packed images -/

/-- Up to 255 packets, the frames are bytes. -/
theorem packed_bytes {image : List UInt8} (bounded : image.length ≤ 255 * 1022) :
    ∀ frame ∈ packImageToFrames (image.map UInt8.toNat), frame ≠ [] ∧ ∀ n ∈ frame, n < 256 := by
  rw [packImageToFrames_eq image bounded]
  intro frame member
  obtain ⟨f, -, rfl⟩ := List.mem_map.mp member
  refine ⟨fun none => f.bytes_ne_nil (List.map_eq_nil_iff.mp none), ?_⟩
  intro n inFrame
  obtain ⟨b, -, rfl⟩ := List.mem_map.mp inFrame
  exact b.toNat_lt

/-- The packet numbers, as the script writes them. -/
theorem packed_numbers (imageData : List Nat) :
    (packImageToFrames imageData).map (fun frame => frame[7]?.map (· % 256)) =
      (List.range ((imageData.length + maxImageDataLen - 1) / maxImageDataLen)).map
        fun i => some ((i + 1) % 256) := by
  simp only [packImageToFrames]
  rw [List.map_map]
  apply List.map_congr_left
  intro i _
  rfl

/-- The total is in every frame. -/
theorem packed_total (imageData : List Nat)
    (some' : 0 < (imageData.length + maxImageDataLen - 1) / maxImageDataLen) :
    ∃ frame ∈ packImageToFrames imageData,
      (imageData.length + maxImageDataLen - 1) / maxImageDataLen ∈ frame := by
  simp only [packImageToFrames]
  refine ⟨_, List.mem_map_of_mem (List.mem_range.mpr some'), ?_⟩
  simp only [createFrame]
  simp only [List.mem_append, List.mem_cons, true_or, or_true]

/-- More than 255 packets are no bytes. -/
theorem not_emitsBytes {imageData : List Nat} (long : 255 * 1022 < imageData.length) :
    ¬ EmitsBytes imageData := by
  have many : 255 < (imageData.length + maxImageDataLen - 1) / maxImageDataLen := by
    simp only [maxImageDataLen]
    omega
  intro emits
  obtain ⟨frame, member, total⟩ := packed_total imageData (Nat.zero_lt_of_lt many)
  exact absurd (emits.bytes frame member _ total) (Nat.not_le_of_lt many)

/-- **The packer emits real bytes, and its texts denote them, exactly up to 255 packets.** -/
theorem emitsBytes_iff (image : List UInt8) :
    EmitsBytes (image.map UInt8.toNat) ↔ image.length ≤ 255 * 1022 := by
  constructor
  · intro emits
    by_contra long
    apply not_emitsBytes _ emits
    rw [List.length_map]
    exact Nat.lt_of_not_le long
  · intro bounded
    have packed := packed_bytes bounded
    refine ⟨?_, ?_, ?_, ?_⟩
    · exact fun frame member n inFrame => Nat.le_of_lt_succ ((packed frame member).2 n inFrame)
    · exact readHexLine_file fun frame member => (packed frame member).2
    · exact fun frame member =>
        readInitialiser_initialiser (packed frame member).2 (packed frame member).1
    · rw [packed_numbers, List.length_map]
      apply List.Nodup.map_on _ List.nodup_range
      intro i below j below' same
      have count := List.mem_range.mp below
      have count' := List.mem_range.mp below'
      have bytes := Option.some.inj same
      simp only [maxImageDataLen] at count count'
      omega

/-- 256 packets: the total is no byte. -/
theorem packets_256_overflow :
    ¬ ∀ image : List UInt8, 1 ≤ image.length → EmitsBytes (image.map UInt8.toNat) := by
  intro all
  have length : (List.replicate (255 * 1022 + 1) (0 : UInt8)).length = 255 * 1022 + 1 :=
    List.length_replicate
  have emits := all (List.replicate (255 * 1022 + 1) 0) (by rw [length]; exact Nat.succ_pos _)
  apply not_emitsBytes _ emits
  rw [List.length_map, length]
  exact Nat.lt_succ_self _

end EinkLiteOS.Tools
