/-
# Device.Esp8266 -- the WiFi module's replies

The constants of `Device/ESP8266.h`, and `WIFI_CMD_ReturnCheck` of
`Device/ESP8266.c`: the reply line in `WIFI_CMD` is searched for `OK`, then for `ERROR`
and `FAIL`.  `lineVerdict` says what a line of bytes means to that search, wherever it
stands; `lineVerdict_append_eq` is when two unfinished lines mean the same, whatever
completes them.
-/
import EinkLiteOS.Theory.Search

namespace EinkLiteOS.Device

open EinkLiteOS.Theory.Search

set_option autoImplicit false

/-- `WIFI_OK`, `WIFI_ERROR` and `WIFI_NORESPONSE`: 0, 1 and 2. -/
inductive WifiResult where
  | ok
  | error
  | noResponse
  deriving DecidableEq, Repr

/-- `WIFI_RECV_DATA` -/
def wifiRecvData : UInt8 := 0

/-- `WIFI_RECV_CMD` -/
def wifiRecvCmd : UInt8 := 1

/-- `sizeof(WIFI_CMD)` -/
def wifiCmdSize : Nat := 128

/-- The bytes of a string literal. -/
def ascii (s : String) : List UInt8 := s.toList.map fun c => UInt8.ofNat c.toNat

/-- `strstr(s, needle)`, as a condition. -/
def strstr (s : List UInt8) (needle : String) : Bool := decide (ascii needle <:+: text s)

/-- `WIFI_CMD_ReturnCheck()`: the new value of `WIFI_CMD_FLAG`, which is also returned. -/
def wifiCmdReturnCheck (wifiCmd : Vector UInt8 wifiCmdSize) (cmdFlag : UInt8) : UInt8 :=
  if strstr wifiCmd.toList "OK" then 1
  else if strstr wifiCmd.toList "ERROR" || strstr wifiCmd.toList "FAIL" then 2
  else cmdFlag

/-! ## Verdicts -/

/-- The words that make a reply a success. -/
def okWords : List (List UInt8) := [ascii "OK"]

/-- The words that make any other reply a failure. -/
def failWords : List (List UInt8) := [ascii "ERROR", ascii "FAIL"]

/-- The value a reply line sets `WIFI_CMD_FLAG` to, if it sets it. -/
def lineVerdict (line : List UInt8) : Option UInt8 :=
  if Contains okWords (text line) then some 1
  else if Contains failWords (text line) then some 2
  else none

theorem wifiCmdReturnCheck_eq (wifiCmd : Vector UInt8 wifiCmdSize) (cmdFlag : UInt8) :
    wifiCmdReturnCheck wifiCmd cmdFlag = (lineVerdict wifiCmd.toList).getD cmdFlag := by
  simp only [wifiCmdReturnCheck, lineVerdict]
  by_cases ok : Contains okWords (text wifiCmd.toList)
  · have found : strstr wifiCmd.toList "OK" = true := by
      simpa [strstr, Contains, okWords] using ok
    rw [if_pos ok, if_pos found, Option.getD_some]
  · have notFound : ¬ strstr wifiCmd.toList "OK" = true := by
      simpa [strstr, Contains, okWords] using ok
    rw [if_neg ok, if_neg notFound]
    by_cases failed : Contains failWords (text wifiCmd.toList)
    · have found : (strstr wifiCmd.toList "ERROR" || strstr wifiCmd.toList "FAIL") = true := by
        simpa [strstr, Contains, failWords] using failed
      rw [if_pos failed, if_pos found, Option.getD_some]
    · have notFound : ¬ (strstr wifiCmd.toList "ERROR" || strstr wifiCmd.toList "FAIL") = true := by
        simpa [strstr, Contains, failWords] using failed
      rw [if_neg failed, if_neg notFound, Option.getD_none]

/-- The verdict is about the bytes before the first NUL. -/
theorem lineVerdict_nul (line rest : List UInt8) :
    lineVerdict (line ++ 0 :: rest) = lineVerdict line := by
  have cut : text (line ++ 0 :: rest) = text line := by
    by_cases nul : 0 ∈ line
    · exact text_append_of_nul nul _
    · have whole := text_append nul []
      rw [List.append_nil] at whole
      rw [text_append nul, whole]
      rfl
  simp only [lineVerdict]
  rw [cut]

theorem lineVerdict_of_nul {front : List UInt8} (nul : 0 ∈ front) (back : List UInt8) :
    lineVerdict (front ++ back) = lineVerdict front := by
  simp only [lineVerdict]
  rw [text_append_of_nul nul]

/-- The endings of the words that a reply is searched for. -/
def wordEndings : List (List UInt8) := endings (okWords ++ failWords)

/-- Two unfinished lines read the same with every ending that fits in `room` bytes. -/
def ReadAlike (room : Nat) (front other : List UInt8) : Prop :=
  ∀ ending ∈ wordEndings, ending.length ≤ room →
    lineVerdict (front ++ ending) = lineVerdict (other ++ ending)

instance (room : Nat) (front other : List UInt8) : Decidable (ReadAlike room front other) :=
  inferInstanceAs (Decidable (∀ ending ∈ wordEndings, _))

theorem lineVerdict_eq_one {line : List UInt8} :
    lineVerdict line = some 1 ↔ Contains okWords (text line) := by
  simp only [lineVerdict]
  by_cases ok : Contains okWords (text line)
  · simp only [ok, if_true]
  · simp only [ok, if_false, iff_false]
    split <;> decide

theorem lineVerdict_eq_two {line : List UInt8} :
    lineVerdict line = some 2 ↔
      ¬ Contains okWords (text line) ∧ Contains failWords (text line) := by
  simp only [lineVerdict]
  by_cases ok : Contains okWords (text line)
  · simp only [ok, if_true, not_true, false_and, iff_false]
    decide
  · simp only [ok, if_false, not_false_iff, true_and]
    split
    case isTrue failed => simp only [failed]
    case isFalse passed => simp only [passed, iff_false]; decide

theorem lineVerdict_cases (line : List UInt8) :
    lineVerdict line = none ∨ lineVerdict line = some 1 ∨ lineVerdict line = some 2 := by
  simp only [lineVerdict]
  split
  · exact Or.inr (Or.inl rfl)
  · split
    · exact Or.inr (Or.inr rfl)
    · exact Or.inl rfl

theorem lineVerdict_congr {line other : List UInt8}
    (ok : lineVerdict line = some 1 ↔ lineVerdict other = some 1)
    (failed : lineVerdict line = some 2 ↔ lineVerdict other = some 2) :
    lineVerdict line = lineVerdict other := by
  rcases lineVerdict_cases line with none | one | two
  · rcases lineVerdict_cases other with none' | one | two
    · rw [none, none']
    · exact (ok.mpr one).trans one.symm
    · exact (failed.mpr two).trans two.symm
  · exact one.trans (ok.mp one).symm
  · exact two.trans (failed.mp two).symm

/-! ## Unfinished lines -/

/-- No word has a newline in it, so the newline that ends a line changes no verdict. -/
theorem lineVerdict_newline (line : List UInt8) :
    lineVerdict (line ++ [10]) = lineVerdict line := by
  by_cases nul : 0 ∈ line
  · exact lineVerdict_of_nul nul _
  · have whole := text_append nul []
    rw [List.append_nil] at whole
    have ended : text (line ++ [10]) = line ++ [10] := text_append nul [10]
    simp only [lineVerdict]
    rw [ended, whole]
    simp only [text, List.takeWhile_nil, List.append_nil]
    rw [if_congr (contains_concat (by decide) (by decide) line) rfl
      (if_congr (contains_concat (by decide) (by decide) line) rfl rfl)]

theorem text_ending {ending : List UInt8} (member : ending ∈ wordEndings) :
    text ending = ending := by
  revert ending
  decide

/-- A line without NUL so far, and more of it: a success is in what comes, or in the line
and an ending that comes first. -/
theorem lineVerdict_append_one {front : List UInt8} (noNul : 0 ∉ front) (back : List UInt8) :
    lineVerdict (front ++ back) = some 1 ↔ Contains okWords (text back) ∨
      ∃ ending ∈ wordEndings, ending <+: text back ∧ lineVerdict (front ++ ending) = some 1 := by
  rw [lineVerdict_eq_one, text_append noNul,
    contains_append (List.subset_append_left okWords failWords)]
  refine or_congr_right (exists_congr fun ending => and_congr_right fun member => ?_)
  rw [lineVerdict_eq_one, text_append noNul, text_ending member]

/-- And a failure, if it is no success. -/
theorem lineVerdict_append_two {front : List UInt8} (noNul : 0 ∉ front) (back : List UInt8) :
    lineVerdict (front ++ back) = some 2 ↔ lineVerdict (front ++ back) ≠ some 1 ∧
      (Contains failWords (text back) ∨
        ∃ ending ∈ wordEndings, ending <+: text back ∧ lineVerdict (front ++ ending) = some 2) := by
  have failed := contains_append (List.subset_append_right okWords failWords) front (text back)
  constructor
  · intro two
    have notOne : lineVerdict (front ++ back) ≠ some 1 := by
      rw [two]
      decide
    refine ⟨notOne, ?_⟩
    rw [lineVerdict_eq_two, text_append noNul, failed] at two
    refine two.2.imp_right ?_
    rintro ⟨ending, member, begins, contains⟩
    refine ⟨ending, member, begins, ?_⟩
    rw [lineVerdict_eq_two, text_append noNul, text_ending member]
    refine ⟨fun ok => notOne ?_, contains⟩
    rw [lineVerdict_append_one noNul]
    refine Or.inr ⟨ending, member, begins, ?_⟩
    rwa [lineVerdict_eq_one, text_append noNul, text_ending member]
  · rintro ⟨notOne, contains⟩
    rw [Ne, lineVerdict_eq_one] at notOne
    rw [lineVerdict_eq_two]
    refine ⟨notOne, ?_⟩
    rw [text_append noNul, failed]
    refine contains.imp_right ?_
    rintro ⟨ending, member, begins, two⟩
    rw [lineVerdict_eq_two, text_append noNul, text_ending member] at two
    exact ⟨ending, member, begins, two.2⟩

theorem length_text_le (bytes : List UInt8) : (text bytes).length ≤ bytes.length :=
  (List.takeWhile_prefix _).length_le

theorem begins_fits {room : Nat} {tail ending : List UInt8} (fits : tail.length ≤ room)
    (begins : ending <+: text tail) : ending.length ≤ room :=
  begins.length_le.trans ((length_text_le tail).trans fits)

/-- The empty ending. -/
theorem nil_mem_wordEndings : [] ∈ wordEndings := by decide

/-- A line with a NUL means the same whatever follows.  One without, that reads alike,
means that as well. -/
theorem lineVerdict_of_alike_nul {room : Nat} {front other tail : List UInt8}
    (alike : ReadAlike room front other) (nul : 0 ∈ front) (noNul : 0 ∉ other)
    (fits : tail.length ≤ room) : lineVerdict (other ++ tail) = lineVerdict front := by
  have reads : ∀ ending ∈ wordEndings, ending.length ≤ room →
      lineVerdict (other ++ ending) = lineVerdict front := fun ending member small =>
    (alike ending member small).symm.trans (lineVerdict_of_nul nul ending)
  have bare : lineVerdict (other ++ []) = lineVerdict front :=
    reads [] nil_mem_wordEndings (Nat.zero_le room)
  by_cases long : 2 ≤ room
  · -- `OK` would still fit, so the line is a success already
    have ok : lineVerdict (other ++ ascii "OK") = some 1 := by
      rw [lineVerdict_append_one noNul]
      exact Or.inl (by decide)
    rw [reads (ascii "OK") (by decide) long] at ok
    rw [ok, lineVerdict_append_one noNul]
    exact Or.inr ⟨[], nil_mem_wordEndings, List.nil_prefix, bare.trans ok⟩
  · -- what still fits is shorter than any word
    have short : (text tail).length < 2 := by
      have := length_text_le tail
      omega
    have noWord : ∀ words : List (List UInt8), (∀ word ∈ words, 2 ≤ word.length) →
        ¬ Contains words (text tail) := by
      rintro words longWords ⟨word, member, inside⟩
      have := inside.length_le
      have := longWords word member
      omega
    have value : ∀ v, (∃ ending ∈ wordEndings, ending <+: text tail ∧
        lineVerdict (other ++ ending) = v) ↔ lineVerdict front = v := by
      intro v
      constructor
      · rintro ⟨ending, member, begins, same⟩
        rw [← same, reads ending member (begins_fits fits begins)]
      · intro same
        exact ⟨[], nil_mem_wordEndings, List.nil_prefix, bare.trans same⟩
    have one : lineVerdict (other ++ tail) = some 1 ↔ lineVerdict front = some 1 := by
      rw [lineVerdict_append_one noNul, or_iff_right (noWord okWords (by decide)), value]
    refine lineVerdict_congr one ?_
    rw [lineVerdict_append_two noNul, or_iff_right (noWord failWords (by decide)), value, Ne, one]
    refine and_iff_right_of_imp fun two ok => ?_
    rw [two] at ok
    exact absurd ok (by decide)

/-- **Unfinished lines that read alike get the same verdict**, whatever completes them in
the room that is left. -/
theorem lineVerdict_append_eq {room : Nat} {front other tail : List UInt8}
    (alike : ReadAlike room front other) (fits : tail.length ≤ room) :
    lineVerdict (front ++ tail) = lineVerdict (other ++ tail) := by
  by_cases nul : 0 ∈ front
  · rw [lineVerdict_of_nul nul]
    by_cases nul' : 0 ∈ other
    · rw [lineVerdict_of_nul nul']
      simpa using alike [] nil_mem_wordEndings (Nat.zero_le room)
    · exact (lineVerdict_of_alike_nul alike nul nul' fits).symm
  · by_cases nul' : 0 ∈ other
    · rw [lineVerdict_of_nul nul']
      exact lineVerdict_of_alike_nul (fun ending member small => (alike ending member small).symm)
        nul' nul fits
    · have reads : ∀ v, (∃ ending ∈ wordEndings, ending <+: text tail ∧
            lineVerdict (front ++ ending) = v) ↔
          ∃ ending ∈ wordEndings, ending <+: text tail ∧ lineVerdict (other ++ ending) = v := by
        intro v
        refine exists_congr fun ending => and_congr_right fun member =>
          and_congr_right fun begins => ?_
        rw [alike ending member (begins_fits fits begins)]
      have one : lineVerdict (front ++ tail) = some 1 ↔ lineVerdict (other ++ tail) = some 1 := by
        rw [lineVerdict_append_one nul, lineVerdict_append_one nul', reads]
      refine lineVerdict_congr one ?_
      rw [lineVerdict_append_two nul, lineVerdict_append_two nul', reads, Ne, Ne, one]

end EinkLiteOS.Device
