/-
# Tools.CArrayText -- the converter's C text and the packer that reads it

`image_array_to_c_array` of the converter script and `extract_image_array` of
`image_frame_packer.py`, both under `tools/`.  The packer finds the arrays in the text with
one regular expression and the bytes of each with another (`c_arrays_read_back`).

What `\w`, `\d` and `\s` match is the business of Python's Unicode tables, and only a few
documented facts of them are used (`CharClasses`).
-/
import EinkLiteOS.Theory.Pattern
import EinkLiteOS.Tools.FrameText
import EinkLiteOS.Tools.ImageConverter

namespace EinkLiteOS.Tools

open EinkLiteOS.Theory

set_option autoImplicit false

/-! ## The converter's text -/

/-- `hex_lines`: sixteen constants to a line. -/
def hexLines (cArray : List UInt8) : List (List Char) :=
  let hexValues := cArray.map fun b => hexConstant b.toNat
  (List.range ((hexValues.length + 15) / 16)).map fun k =>
    "  ".toList ++ ", ".toList.intercalate (Slices.slice 16 hexValues k)

/-- What stands between the braces. -/
def initialiserText (cArray : List UInt8) : List Char :=
  "\n".toList ++ ",\n".toList.intercalate (hexLines cArray) ++ "\n".toList

def cArrayText (arrayName : List Char) (cArray : List UInt8) : List Char :=
  "\nconst unsigned char ".toList ++ arrayName ++ "[".toList ++ Nat.toDigits 10 cArray.length ++
    "] = \x7b".toList ++ initialiserText cArray ++ "\x7d;\n".toList

/-- `image_array_to_c_array(image_array, array_name)`: the text, and the number of bytes. -/
def imageArrayToCArray (imageArray : List (List Rgb)) (arrayName : List Char) :
    Option (List Char × Nat) :=
  (imageArrayToBytes imageArray).map fun cArray => (cArrayText arrayName cArray, cArray.length)

/-- `output_cstring`: the texts of named images, one behind the other. -/
def outputCString (images : List (List Char × List (List Rgb))) : Option (List Char) :=
  (images.mapM fun image => imageArrayToCArray image.2 image.1).map fun arrays =>
    arrays.flatMap Prod.fst

/-! ## The packer's reader -/

/-- White space among the ASCII characters. -/
def asciiSpace (c : Char) : Bool :=
  c = ' ' || (9 ≤ c.toNat && c.toNat ≤ 13) || (28 ≤ c.toNat && c.toNat ≤ 31)

/-- The character classes of `re`, and the digits `int` knows. -/
structure CharClasses where
  /-- `\w` -/
  word : Char → Bool
  /-- `\d` -/
  digit : Char → Bool
  /-- `\s` -/
  space : Char → Bool
  digitValue : Char → Option Nat
  word_ascii : ∀ c, c.toNat < 128 → word c = (c.isAlphanum || c = '_')
  digit_ascii : ∀ c, c.toNat < 128 → digit c = c.isDigit
  space_ascii : ∀ c, c.toNat < 128 → space c = asciiSpace c
  digitValue_ascii : ∀ c, c.isDigit = true → digitValue c = some (c.toNat - 48)
  /-- No letter, digit or underscore is white space. -/
  space_of_word : ∀ c, word c = true → space c = false

/-- `const\s+unsigned\s+char\s+(\w+)\[(\d+)\]\s*=\s*\{([^}]+)\}` -/
def imagePattern (re : CharClasses) : Pattern Char where
  first := .one ('c' == ·)
  rest := Item.literal "onst".toList ++ .plus re.space :: (Item.literal "unsigned".toList ++
    .plus re.space :: (Item.literal "char".toList ++ .plus re.space ::
    .group (.plus re.word) :: (Item.literal "[".toList ++ .group (.plus re.digit) ::
    (Item.literal "]".toList ++ .star re.space :: (Item.literal "=".toList ++
    .star re.space :: (Item.literal "\x7b".toList ++ .group (.plus (· != '\x7d')) ::
    Item.literal "\x7d".toList))))))
  consumes := Nat.one_pos

/-- `0x([0-9A-Fa-f]{2})` -/
def hexPattern : Pattern Char where
  first := .one ('0' == ·)
  rest := Item.literal "x".toList ++ [.group (.times 2 fun c => (hexValue c).isSome)]
  consumes := Nat.one_pos

/-- `int(s)` of a string of digits. -/
def intBase10 (re : CharClasses) (s : List Char) : Option Nat :=
  if s = [] then none else s.foldlM (fun n c => (re.digitValue c).map fun d => 10 * n + d) 0

/-- `int(s, 16)` of a string of hexadecimal digits. -/
def intBase16 (s : List Char) : Option Nat :=
  if s = [] then none else s.foldlM (fun n c => (hexValue c).map fun d => 16 * n + d) 0

/-- An entry of `images`. -/
structure ImageEntry where
  name : List Char
  size : Nat
  data : List Nat
  deriving DecidableEq, Repr

/-- The body of the loop over the matches. -/
def readImage (re : CharClasses) (groups : List (List Char)) : Option ImageEntry := do
  let size ← intBase10 re (groups.getD 1 [])
  let hexValues := (findAll hexPattern (groups.getD 2 [])).map fun value => value.getD 0 []
  let data ← hexValues.mapM intBase16
  return { name := groups.getD 0 [], size := size, data := data }

/-- The two regular expressions, applied to a text. -/
def readImages (re : CharClasses) (content : List Char) : Option (List ImageEntry) :=
  (findAll (imagePattern re) content).mapM (readImage re)

/-- `extract_image_array`, behind the opening of the file: without a match it raises an
error. -/
def extractImageArray (re : CharClasses) (content : List Char) : Option (List ImageEntry) :=
  if findAll (imagePattern re) content = [] then none else readImages re content

/-! ## The constants of an array -/

theorem hexFormat_digits {n : Nat} (byte : n < 256) :
    (hexFormat n).length = 2 ∧ (∀ c ∈ hexFormat n, (hexValue c).isSome = true) ∧
      intBase16 (hexFormat n) = some n := by
  obtain ⟨a, b, pair, high, low⟩ := hexFormat_pair byte
  have value : 16 * (16 * 0 + n / 16) + n % 16 = n := by omega
  rw [pair]
  refine ⟨rfl, ?_, ?_⟩
  · intro c member
    simp only [List.mem_cons, List.not_mem_nil, or_false] at member
    rcases member with rfl | rfl
    · rw [high]
      rfl
    · rw [low]
      rfl
  · simp [intBase16, high, low]
    omega

/-- A constant is one match, whatever stands behind it. -/
theorem reads_hexConstant {n : Nat} (byte : n < 256) :
    Reads hexPattern (hexConstant n) [[hexFormat n]] := by
  obtain ⟨length, digits, -⟩ := hexFormat_digits byte
  refine Reads.of_match (List.append_ne_nil_of_left_ne_nil (by decide) _) ?_
  intro text
  have behind : matchHere [] text = some ([], text) := rfl
  have pair := matchHere_times (.group (.times 2 fun c => (hexValue c).isSome)) (hexFormat n)
    (congrArg some length.symm) length.symm digits behind
  simp only [hexConstant]
  rw [List.append_assoc]
  exact matchHere_literal "0x".toList pair

/-- The constants are read through the commas, the blanks and the line ends. -/
theorem reads_initialiserText (cArray : List UInt8) :
    Reads hexPattern (initialiserText cArray) (cArray.map fun b => [hexFormat b.toNat]) := by
  have newline : Reads hexPattern "\n".toList [] := Reads.of_rejected (by decide)
  have indent : Reads hexPattern "  ".toList [] := Reads.of_rejected (by decide)
  have comma : Reads hexPattern ", ".toList [] := Reads.of_rejected (by decide)
  have lineEnd : Reads hexPattern ",\n".toList [] := Reads.of_rejected (by decide)
  have line : ∀ k, Reads hexPattern ("  ".toList ++ ", ".toList.intercalate
      (Slices.slice 16 (cArray.map fun b => hexConstant b.toNat) k))
      ((Slices.slice 16 cArray k).flatMap fun b => [[hexFormat b.toNat]]) := by
    intro k
    rw [Slices.slice_map]
    exact indent.append (Reads.intercalate comma fun b _ => reads_hexConstant b.toNat_lt)
  have lines : Reads hexPattern (",\n".toList.intercalate (hexLines cArray))
      ((List.range (((cArray.map fun b => hexConstant b.toNat).length + 15) / 16)).flatMap
        fun k => (Slices.slice 16 cArray k).flatMap fun b => [[hexFormat b.toNat]]) :=
    Reads.intercalate lineEnd fun k _ => line k
  have whole := (newline.append lines).append newline
  rw [List.nil_append, List.append_nil, ← List.flatMap_assoc, Slices.flatMap_slice,
    ← List.map_eq_flatMap] at whole
  · exact whole
  · rw [List.length_map]
    omega

/-! ## An array -/

theorem notMem_intercalate {α : Type} {a : α} {separator : List α} {words : List (List α)}
    (between : a ∉ separator) (each : ∀ w ∈ words, a ∉ w) : a ∉ separator.intercalate words := by
  induction words with
  | nil => exact List.not_mem_nil
  | cons word rest ih =>
      obtain ⟨first, later⟩ := List.forall_mem_cons.mp each
      by_cases last : rest = []
      · rw [last, List.intercalate_singleton]
        exact first
      · rw [List.intercalate_cons_of_ne_nil last, List.mem_append, List.mem_append]
        rintro ((own | separating) | back)
        · exact first own
        · exact between separating
        · exact ih later back

theorem brace_notMem_hexConstant {n : Nat} (byte : n < 256) : '\x7d' ∉ hexConstant n :=
  List.not_mem_append (by decide) (notMem_hexFormat byte (by decide))

/-- No closing brace stands in an initialiser. -/
theorem brace_notMem_initialiserText (cArray : List UInt8) :
    '\x7d' ∉ initialiserText cArray := by
  have lines : '\x7d' ∉ ",\n".toList.intercalate (hexLines cArray) := by
    refine notMem_intercalate (by decide) ?_
    intro line member
    obtain ⟨k, -, rfl⟩ := List.mem_map.mp member
    have constants : '\x7d' ∉ ", ".toList.intercalate
        (Slices.slice 16 (cArray.map fun b => hexConstant b.toNat) k) := by
      refine notMem_intercalate (by decide) ?_
      intro word inSlice
      have inArray := List.mem_of_mem_drop (List.mem_of_mem_take inSlice)
      obtain ⟨b, -, rfl⟩ := List.mem_map.mp inArray
      exact brace_notMem_hexConstant b.toNat_lt
    exact List.not_mem_append (by decide) constants
  exact List.not_mem_append (List.not_mem_append (by decide) lines) (by decide)

namespace CharClasses

variable (re : CharClasses)

theorem space_blank : ∀ c ∈ " ".toList, re.space c = true := by
  intro c member
  have blank : c = ' ' := List.mem_singleton.mp member
  rw [blank, re.space_ascii ' ' (by decide)]
  decide

theorem space_of_ascii {c : Char} (ascii : c.toNat < 128) (visible : asciiSpace c = false) :
    re.space c = false := by
  rw [re.space_ascii c ascii, visible]

/-- A blank, where something else follows. -/
theorem matchHere_blank {least : Nat} (few : least ≤ 1) {items : List (Item Char)} {c : Char}
    {text : List Char} {found : List (List Char) × List Char} (visible : re.space c = false)
    (behind : matchHere items (c :: text) = some found) :
    matchHere (⟨re.space, least, none, false⟩ :: items) (" ".toList ++ c :: text) = some found :=
  matchHere_run _ rfl re.space_blank few (ends_cons visible) behind

theorem digit_of_isDigit {c : Char} (digit : c.isDigit = true) : re.digit c = true := by
  have low : c.toNat < 128 := by
    have range : 48 ≤ c.toNat ∧ c.toNat ≤ 57 := Char.isDigit_iff_toNat.mp digit
    omega
  rw [re.digit_ascii c low, digit]

/-- `int` reads the digits of a number. -/
theorem intBase10_toDigits (n : Nat) : intBase10 re (Nat.toDigits 10 n) = some n := by
  have digits : ∀ c ∈ Nat.toDigits 10 n, c.isDigit = true :=
    fun c member => Nat.isDigit_of_mem_toDigits (by decide) (by decide) member
  have fold : ∀ (s : List Char) (v : Nat), (∀ c ∈ s, c.isDigit = true) →
      s.foldlM (fun n c => (re.digitValue c).map fun d => 10 * n + d) v =
        some (Nat.ofDigitChars 10 s v) := by
    intro s
    induction s with
    | nil => exact fun v _ => rfl
    | cons c s ih =>
        intro v all
        obtain ⟨digit, later⟩ := List.forall_mem_cons.mp all
        rw [List.foldlM_cons, re.digitValue_ascii c digit, Nat.ofDigitChars_cons]
        exact ih _ later
  simp only [intBase10]
  rw [if_neg Nat.toDigits_ne_nil, fold _ 0 digits,
    Nat.ofDigitChars_toDigits (by decide) (by decide)]

end CharClasses

/-- **The first expression captures the name, the size and what stands between the
braces.** -/
theorem matchHere_definition (re : CharClasses) {name size data : List Char} (named : name ≠ [])
    (word : ∀ c ∈ name, re.word c = true) (sized : size ≠ [])
    (digits : ∀ c ∈ size, c.isDigit = true) (filled : data ≠ [])
    (free : '\x7d' ∉ data) (text : List Char) :
    matchHere ((imagePattern re).first :: (imagePattern re).rest)
      ("const".toList ++ (" ".toList ++ ("unsigned".toList ++ (" ".toList ++ ("char".toList ++
        (" ".toList ++ (name ++ ("[".toList ++ (size ++ ("]".toList ++ (" ".toList ++ ("=".toList ++
        (" ".toList ++ ("\x7b".toList ++ (data ++ ("\x7d".toList ++ text)))))))))))))))) =
      some ([name, size, data], text) := by
  have close : matchHere (Item.literal "\x7d".toList) ("\x7d".toList ++ text) = some ([], text) :=
    matchHere_literal "\x7d".toList rfl
  have braces := matchHere_literal "\x7b".toList
    (matchHere_run (.group (.plus (· != '\x7d'))) rfl
      (fun c member => bne_iff_ne.mpr (ne_of_mem_of_not_mem member free))
      (List.length_pos_of_ne_nil filled)
      (ends_cons (by decide)) close)
  have equals := matchHere_literal "=".toList
    (re.matchHere_blank (Nat.zero_le 1) (re.space_of_ascii (by decide) (by decide)) braces)
  have bracket := matchHere_literal "]".toList
    (re.matchHere_blank (Nat.zero_le 1) (re.space_of_ascii (by decide) (by decide)) equals)
  have number := matchHere_literal "[".toList
    (matchHere_run (.group (.plus re.digit)) rfl
      (fun c member => re.digit_of_isDigit (digits c member)) (List.length_pos_of_ne_nil sized)
      (ends_cons (by
        show re.digit ']' = false
        rw [re.digit_ascii _ (by decide)]
        decide)) bracket)
  have identifier := matchHere_run (.group (.plus re.word)) rfl word
    (List.length_pos_of_ne_nil named)
    (ends_cons (by
        show re.word '[' = false
        rw [re.word_ascii _ (by decide)]
        decide)) number
  have space : ∀ items rest found, matchHere items (name ++ rest) = some found →
      matchHere (.plus re.space :: items) (" ".toList ++ (name ++ rest)) = some found := by
    intro items rest found behind
    cases name with
    | nil => exact absurd rfl named
    | cons c name =>
        exact re.matchHere_blank (Nat.le_refl 1) (re.space_of_word c (word c List.mem_cons_self))
          behind
  have char := matchHere_literal "char".toList (space _ _ _ identifier)
  have unsigned := matchHere_literal "unsigned".toList
    (re.matchHere_blank (Nat.le_refl 1) (re.space_of_ascii (by decide) (by decide)) char)
  exact matchHere_literal "const".toList
    (re.matchHere_blank (Nat.le_refl 1) (re.space_of_ascii (by decide) (by decide)) unsigned)

/-- The text of an array is one match. -/
theorem reads_array (re : CharClasses) {name : List Char} (named : name ≠ [])
    (word : ∀ c ∈ name, re.word c = true) (cArray : List UInt8) :
    Reads (imagePattern re) (cArrayText name cArray)
      [[name, Nat.toDigits 10 cArray.length, initialiserText cArray]] := by
  have newline : Reads (imagePattern re) "\n".toList [] :=
    Reads.of_rejected (show "\n".toList.any ('c' == ·) = false by decide)
  have ending : Reads (imagePattern re) ";\n".toList [] :=
    Reads.of_rejected (show ";\n".toList.any ('c' == ·) = false by decide)
  have digits : ∀ c ∈ Nat.toDigits 10 cArray.length, c.isDigit = true :=
    fun c member => Nat.isDigit_of_mem_toDigits (by decide) (by decide) member
  have definition : Reads (imagePattern re) ("const unsigned char ".toList ++ name ++
      "[".toList ++ Nat.toDigits 10 cArray.length ++ "] = \x7b".toList ++ initialiserText cArray ++
      "\x7d".toList) [[name, Nat.toDigits 10 cArray.length, initialiserText cArray]] := by
    apply Reads.of_match (by simp)
    intro text
    have filled : initialiserText cArray ≠ [] := by simp [initialiserText]
    have matched := matchHere_definition re named word Nat.toDigits_ne_nil digits filled
      (brace_notMem_initialiserText cArray) text
    simp only [List.append_assoc]
    exact matched
  have whole := (newline.append definition).append ending
  unfold cArrayText
  simp only [List.append_assoc] at whole ⊢
  exact whole

/-! ## Whole texts -/

/-- The colour a pixel is encoded as. -/
def encodedColor (pixel : Rgb) : FourColor :=
  if pixel = FourColor.white.rgb then .white
  else if pixel = FourColor.yellow.rgb then .yellow
  else if pixel = FourColor.red.rgb then .red
  else .black

theorem colorToBits_encodedColor (pixel : Rgb) :
    colorToBits (encodedColor pixel).rgb = colorToBits pixel := by
  simp only [encodedColor]
  split_ifs with white yellow red
  · rw [white]
  · rw [yellow]
  · rw [red]
  · -- black, or a colour without a code of its own
    by_cases black : pixel = FourColor.black.rgb
    · rw [black]
    · have none : colorMap.lookup pixel = none := by
        rw [List.lookup_eq_none_iff]
        simp only [colorMap]
        simp only [List.forall_mem_cons, bne_iff_ne]
        exact ⟨black, white, yellow, red, fun _ none => absurd none List.not_mem_nil⟩
      rw [colorToBits, colorToBits, none]
      rfl

/-- The converter encodes every image. -/
theorem exists_imageArrayToBytes (imageArray : List (List Rgb)) :
    ∃ cArray, imageArrayToBytes imageArray = some cArray := by
  have pixels : [imageArray.flatten.map fun pixel => (encodedColor pixel).rgb].flatten =
      (imageArray.flatten.map encodedColor).map FourColor.rgb := by
    rw [List.flatten_singleton, List.map_map]
    rfl
  have spelled := imageArrayToBytes_spells pixels
  obtain ⟨cArray, packed, -⟩ := spelled
  refine ⟨cArray, ?_⟩
  rw [← packed]
  simp only [imageArrayToBytes, List.flatten_singleton, List.map_map, Function.comp_def,
    colorToBits_encodedColor]

theorem mapM_eq_map {α β : Type} {f : α → Option β} {g : α → β} {xs : List α}
    (each : ∀ x ∈ xs, f x = some (g x)) : xs.mapM f = some (xs.map g) := by
  induction xs with
  | nil => rfl
  | cons x rest ih =>
      obtain ⟨first, later⟩ := List.forall_mem_cons.mp each
      rw [List.mapM_cons, first, ih later]
      rfl

/-- What the packer makes of the match of an array. -/
theorem readImage_array (re : CharClasses) (name : List Char) (cArray : List UInt8) :
    readImage re [name, Nat.toDigits 10 cArray.length, initialiserText cArray] =
      some { name := name, size := cArray.length, data := cArray.map UInt8.toNat } := by
  have constants : findAll hexPattern (initialiserText cArray) =
      cArray.map fun b => [hexFormat b.toNat] := by
    have read := reads_initialiserText cArray []
    rwa [List.append_nil, findAll_nil, List.append_nil] at read
  have values : (cArray.map fun b => hexFormat b.toNat).mapM intBase16 =
      some (cArray.map UInt8.toNat) := by
    rw [List.mapM_map]
    exact mapM_eq_map fun b _ => (hexFormat_digits b.toNat_lt).2.2
  simp only [readImage, List.getD_cons_zero, List.getD_cons_succ, re.intBase10_toDigits, constants,
    List.map_map, Function.comp_def, values]
  rfl

/-- An entry is what the converter was given: the name, and the packed bytes with their
number. -/
def Describes (image : List Char × List (List Rgb)) (entry : ImageEntry) : Prop :=
  entry.name = image.1 ∧ ∃ cArray, imageArrayToBytes image.2 = some cArray ∧
    entry.size = cArray.length ∧ entry.data = cArray.map UInt8.toNat

/-- **The converter's C text is read back unchanged by the packer.** -/
theorem c_arrays_read_back (re : CharClasses) (images : List (List Char × List (List Rgb)))
    (names : ∀ image ∈ images, image.1 ≠ [] ∧ ∀ c ∈ image.1, re.word c = true) :
    ∃ cString entries, outputCString images = some cString ∧
      readImages re cString = some entries ∧ List.Forall₂ Describes images entries ∧
      (images ≠ [] → extractImageArray re cString = some entries) := by
  choose packed packs using fun image : List Char × List (List Rgb) =>
    exists_imageArrayToBytes image.2
  have texts : images.mapM (fun image => imageArrayToCArray image.2 image.1) =
      some (images.map fun image =>
        (cArrayText image.1 (packed image), (packed image).length)) := by
    refine mapM_eq_map ?_
    intro image _
    rw [imageArrayToCArray, packs image]
    rfl
  have read := Reads.flatMap fun image member =>
    reads_array re (names image member).1 (names image member).2 (packed image)
  have found := read []
  rw [List.append_nil, findAll_nil, List.append_nil, ← List.map_eq_flatMap] at found
  have entries : readImages re (images.flatMap fun image => cArrayText image.1 (packed image)) =
      some (images.map fun image => ⟨image.1, (packed image).length,
        (packed image).map UInt8.toNat⟩) := by
    simp only [readImages]
    rw [found, List.mapM_map]
    exact mapM_eq_map fun image _ => readImage_array re image.1 (packed image)
  refine ⟨_, _, ?_, entries, ?_, ?_⟩
  · simp only [outputCString]
    exact Option.map_eq_some_iff.mpr ⟨_, texts, List.flatMap_map _ _ _⟩
  · exact List.forall₂_map_right_iff.mpr (List.forall₂_same.mpr fun image _ =>
      ⟨rfl, packed image, packs image, rfl, rfl⟩)
  · intro some'
    simp only [extractImageArray]
    rw [if_neg, entries]
    rw [found]
    exact fun none => some' (List.map_eq_nil_iff.mp none)

theorem asciiSpace_le {c : Char} (space : asciiSpace c = true) : c.toNat ≤ 32 := by
  simp only [asciiSpace, Bool.or_eq_true, Bool.and_eq_true, decide_eq_true_eq] at space
  rcases space with (rfl | control) | separator
  · decide
  · omega
  · omega

theorem not_asciiWord {c : Char} (low : c.toNat ≤ 32) : (c.isAlphanum || c = '_') = false := by
  have all : ∀ n < 33, ((Char.ofNat n).isAlphanum || Char.ofNat n = '_') = false := by decide
  have own := all c.toNat (Nat.lt_succ_of_le low)
  rwa [Char.ofNat_toNat] at own

/-- The classes of ASCII alone. -/
def asciiClasses : CharClasses where
  word c := c.isAlphanum || c = '_'
  digit := Char.isDigit
  space := asciiSpace
  digitValue c := if c.isDigit then some (c.toNat - 48) else none
  word_ascii _ _ := rfl
  digit_ascii _ _ := rfl
  space_ascii _ _ := rfl
  digitValue_ascii _ digit := if_pos digit
  space_of_word := by
    intro c word
    by_contra space
    have low := asciiSpace_le (Bool.eq_true_of_not_eq_false space)
    rw [not_asciiWord low] at word
    cases word

/-- An array without a byte, and one of a single byte. -/
theorem c_arrays_read_back_two :
    let images := [(['a', '_', '1'], []), (['b'], [[⟨255, 0, 0⟩]])]
    ∃ cString entries, outputCString images = some cString ∧
      readImages asciiClasses cString = some entries ∧ List.Forall₂ Describes images entries ∧
      (images ≠ [] → extractImageArray asciiClasses cString = some entries) := by
  intro images
  refine c_arrays_read_back asciiClasses images ?_
  simp only [images, List.forall_mem_cons]
  refine ⟨⟨by decide, by decide, by decide, by decide, ?_⟩, ⟨by decide, by decide, ?_⟩, ?_⟩
  all_goals exact fun _ none => absurd none List.not_mem_nil

end EinkLiteOS.Tools
