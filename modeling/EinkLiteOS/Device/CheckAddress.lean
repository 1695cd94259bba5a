/-
# Device.CheckAddress -- the checks of addresses and ports

`WIFI_CheckIP` and `WIFI_CheckPort` of `Device/ESP8266.c`.  The first one counts groups
in `i` and digits of a group in `j`, and looks at `j` only where a dot ends a group: how
many groups there are, and how long the last one is, it never asks.  So it accepts strings
that are no dotted quad (`LooselyDotted`), and a digit behind the fourth dot is added to
`num[4]` (`Overruns`); `wifiCheckIp_iff` says that these are all its failures.
-/
import EinkLiteOS.Theory.Decimal
import Mathlib.Data.UInt
import Mathlib.Data.Vector.Basic

namespace EinkLiteOS.Device

open EinkLiteOS.Theory.Decimal

set_option autoImplicit false

/-- A NUL-terminated string. -/
structure CString where
  bytes : List UInt8
  noNul : 0 ∉ bytes

/-! ## `WIFI_CheckIP` -/

/-- `'.'` -/
def dot : UInt8 := 46

/-- `maxlength` of an address. -/
def maxIpLength : Nat := 15

/-- The variables of the scan: `i` counts the groups, `j` the digits of the group. -/
structure IpScan where
  length : UInt16
  i : UInt8
  j : UInt8
  num : Vector UInt16 4
  deriving DecidableEq, Repr

/-- How the scan goes on. -/
inductive IpStep where
  | next (scan : IpScan)
  | returns (value : UInt8)
  /-- `num[i]` with `i` outside the array. -/
  | outside
  deriving DecidableEq, Repr

/-- The body of the scanning loop, with `length++`. -/
def IpScan.char (s : IpScan) (ip : UInt8) : IpStep :=
  if ip = dot then
    if s.j = 0 ∨ 3 < s.j then .returns 0
    else .next { s with length := s.length + 1, i := s.i + 1, j := 0 }
  else if IsDigit ip then
    if inside : s.i.toNat < 4 then
      .next { s with
        length := s.length + 1
        j := s.j + 1
        num := s.num.set s.i.toNat
          (UInt16.ofNat (s.num[s.i.toNat].toNat * 10 + (ip.toNat - 48))) }
    else .outside
  else .returns 0

/-- The scanning loop, up to the NUL. -/
def scanIp : List UInt8 → IpScan → IpStep
  | [], s => .next s
  | ip :: rest, s =>
      if s.length.toNat ≤ maxIpLength then
        match s.char ip with
        | .next s' => scanIp rest s'
        | .returns value => .returns value
        | .outside => .outside
      else .next s

/-- `WIFI_CheckIP(ip)`; `none` if it leaves the array `num`. -/
def wifiCheckIp (ip : CString) : Option UInt8 :=
  match scanIp ip.bytes ⟨0, 0, 0, Vector.replicate 4 0⟩ with
  | .next s =>
      if maxIpLength < s.length.toNat then some 0
      else if ∃ n ∈ s.num.toList, ¬ n < 256 then some 0
      else some 1
  | .returns value => some value
  | .outside => none

/-! ### What it is for -/

/-- One to three digits. -/
def IsGroup (group : List UInt8) : Prop :=
  (1 ≤ group.length ∧ group.length ≤ 3) ∧ ∀ b ∈ group, IsDigit b

instance (group : List UInt8) : Decidable (IsGroup group) := inferInstanceAs (Decidable (_ ∧ _))

/-- Four groups with single dots between them, each with a value of at most 255. -/
def IsDottedQuad (s : List UInt8) : Prop :=
  ∃ a b c d, s = a ++ dot :: (b ++ dot :: (c ++ dot :: d)) ∧
    ∀ group ∈ [a, b, c, d], IsGroup group ∧ value group ≤ 255

/-- Accepted and no dotted quad: too few groups, or a last one that is empty or too long,
or a dot behind the fourth.  The value of a long last group is read modulo 65536. -/
def LooselyDotted (s : List UInt8) : Prop :=
  ∃ full last, s = separated dot full ++ last ∧ s.length ≤ 15 ∧
    (∀ group ∈ full, IsGroup group ∧ value group ≤ 255) ∧
    (∀ b ∈ last, IsDigit b) ∧ value last % 65536 ≤ 255 ∧
    (full.length < 3 ∨ full.length = 3 ∧ ¬ IsGroup last ∨ full.length = 4 ∧ last = [])

/-- Four groups with a dot behind each, and then a digit, all within the 16 bytes that are
scanned. -/
def Overruns (s : List UInt8) : Prop :=
  ∃ full digit rest, s = separated dot full ++ digit :: rest ∧ full.length = 4 ∧
    (∀ group ∈ full, IsGroup group) ∧ IsDigit digit ∧ (separated dot full).length ≤ 15

/-! ### The scan -/

/-- What has been scanned: groups with a dot behind each, and the digits of the next one. -/
structure Readable (full : List (List UInt8)) (last : List UInt8) : Prop where
  few : full.length ≤ 4
  groups : ∀ group ∈ full, IsGroup group
  digits : ∀ b ∈ last, IsDigit b
  spare : full.length = 4 → last = []

/-- `num` after some groups; a group that is not there yet counts as 0. -/
def nums (groups : List (List UInt8)) : Vector UInt16 4 :=
  Vector.ofFn fun k => UInt16.ofNat (value (groups.getD k.val []))

/-- The variables after what has been scanned. -/
def readState (full : List (List UInt8)) (last : List UInt8) : IpScan where
  length := UInt16.ofNat (separated dot full ++ last).length
  i := UInt8.ofNat full.length
  j := UInt8.ofNat last.length
  num := nums (full ++ [last])

theorem nums_concat_nil (groups : List (List UInt8)) : nums (groups ++ [[]]) = nums groups := by
  simp only [nums]
  congr 1
  funext k
  rw [List.getD_eq_getElem?_getD, List.getD_eq_getElem?_getD]
  by_cases inside : k.val < groups.length
  · rw [List.getElem?_append_left inside]
  · rw [List.getElem?_append_right (Nat.le_of_not_lt inside),
      List.getElem?_eq_none (Nat.le_of_not_lt inside)]
    cases k.val - groups.length <;> rfl

/-- Adding a digit to the last group. -/
theorem nums_set (full : List (List UInt8)) (last : List UInt8) (b : UInt8)
    (inside : full.length < 4) :
    (nums (full ++ [last])).set full.length
        (UInt16.ofNat ((nums (full ++ [last]))[full.length].toNat * 10 + (b.toNat - 48))) =
      nums (full ++ [last ++ [b]]) := by
  apply Vector.ext
  intro k bounded
  by_cases here : full.length = k
  · subst here
    rw [Vector.getElem_set_self]
    simp only [nums]
    rw [Vector.getElem_ofFn, Vector.getElem_ofFn]
    simp only [List.getD_eq_getElem?_getD, List.getElem?_concat_length, Option.getD_some]
    rw [value_concat]
    apply UInt16.toNat_inj.mp
    simp only [UInt16.toNat_ofNat']
    omega
  · rw [Vector.getElem_set_ne _ _ here]
    simp only [nums]
    rw [Vector.getElem_ofFn, Vector.getElem_ofFn]
    simp only [List.getD_eq_getElem?_getD]
    rcases Nat.lt_or_gt_of_ne here with later | before
    · rw [List.getElem?_eq_none (by rw [List.length_append, List.length_singleton]; omega),
        List.getElem?_eq_none (by rw [List.length_append, List.length_singleton]; omega)]
    · rw [List.getElem?_append_left before, List.getElem?_append_left before]

theorem digit_ne_dot {b : UInt8} (digit : IsDigit b) : b ≠ dot := by
  rintro rfl
  exact absurd digit (by decide)

theorem dot_notMem {last : List UInt8} (digits : ∀ b ∈ last, IsDigit b) : dot ∉ last := by
  intro member
  exact digit_ne_dot (digits dot member) rfl

section Char

variable {full : List (List UInt8)} {last : List UInt8}

theorem length_scanned (full : List (List UInt8)) (last : List UInt8) :
    full.length + last.length ≤ (separated dot full ++ last).length := by
  rw [List.length_append]
  induction full with
  | nil => simp
  | cons group full ih =>
      rw [separated_cons, List.length_append, List.length_cons, List.length_cons]
      omega

/-- A dot that ends a group. -/
theorem char_dot (group : IsGroup last) :
    (readState full last).char dot = .next (readState (full ++ [last]) []) := by
  have three := group.1.2
  have one := group.1.1
  have counted : ¬ (UInt8.ofNat last.length = 0 ∨ 3 < UInt8.ofNat last.length) := by
    rw [← UInt8.toNat_inj, UInt8.lt_iff_toNat_lt, UInt8.toNat_ofNat',
      Nat.mod_eq_of_lt (by omega)]
    show ¬ (last.length = 0 ∨ 3 < last.length)
    omega
  have length : UInt16.ofNat (separated dot (full ++ [last]) ++ []).length =
      UInt16.ofNat (separated dot full ++ last).length + 1 := by
    rw [separated_concat, List.append_nil, List.length_append]
    exact UInt16.ofNat_add _ _
  have count : UInt8.ofNat (full ++ [last]).length = UInt8.ofNat full.length + 1 := by
    rw [List.length_append]
    exact UInt8.ofNat_add _ _
  unfold IpScan.char readState
  rw [if_pos rfl, if_neg counted, length, count, nums_concat_nil]
  rfl

/-- A dot that ends no group. -/
theorem char_dot_reject (few : last.length ≤ 16) (digits : ∀ b ∈ last, IsDigit b)
    (noGroup : ¬ IsGroup last) : (readState full last).char dot = .returns 0 := by
  have miscounted : UInt8.ofNat last.length = 0 ∨ 3 < UInt8.ofNat last.length := by
    rw [← UInt8.toNat_inj, UInt8.lt_iff_toNat_lt, UInt8.toNat_ofNat',
      Nat.mod_eq_of_lt (by omega)]
    show last.length = 0 ∨ 3 < last.length
    by_contra counted
    exact noGroup ⟨by omega, digits⟩
  unfold IpScan.char readState
  rw [if_pos rfl, if_pos miscounted]

/-- A digit of one of the four groups. -/
theorem char_digit {b : UInt8} (digit : IsDigit b) (inside : full.length < 4) :
    (readState full last).char b = .next (readState full (last ++ [b])) := by
  have index : (UInt8.ofNat full.length).toNat = full.length := by
    rw [UInt8.toNat_ofNat']
    omega
  have length : UInt16.ofNat (separated dot full ++ (last ++ [b])).length =
      UInt16.ofNat (separated dot full ++ last).length + 1 := by
    rw [← List.append_assoc, List.length_append]
    exact UInt16.ofNat_add _ _
  have count : UInt8.ofNat (last ++ [b]).length = UInt8.ofNat last.length + 1 := by
    rw [List.length_append]
    exact UInt8.ofNat_add _ _
  unfold IpScan.char readState
  rw [if_neg (digit_ne_dot digit), if_pos digit, dif_pos (by rwa [index]), length, count,
    ← nums_set full last b inside]
  simp only [index]

/-- A digit behind the fourth dot. -/
theorem char_outside {b : UInt8} (digit : IsDigit b) (full4 : full.length = 4) :
    (readState full last).char b = .outside := by
  unfold IpScan.char readState
  rw [if_neg (digit_ne_dot digit), if_pos digit, full4]
  rfl

/-- Any other character. -/
theorem char_other {b : UInt8} (notDot : b ≠ dot) (notDigit : ¬ IsDigit b) (s : IpScan) :
    s.char b = .returns 0 := by
  simp only [IpScan.char]
  rw [if_neg notDot, if_neg notDigit]

end Char

section Scan

variable {full : List (List UInt8)} {last : List UInt8}

theorem toNat_length (few : (separated dot full ++ last).length ≤ 16) :
    (readState full last).length.toNat = (separated dot full ++ last).length := by
  simp only [readState]
  rw [UInt16.toNat_ofNat']
  omega

/-- One more character, while there is room. -/
theorem scanIp_cons {s : IpScan} {ip : UInt8} {rest : List UInt8}
    (room : s.length.toNat ≤ maxIpLength) :
    scanIp (ip :: rest) s =
      match s.char ip with
      | .next s' => scanIp rest s'
      | .returns value => .returns value
      | .outside => .outside := by
  rw [scanIp, if_pos room]

/-- What the scan may say about the string it has read. -/
def Scanned (s : List UInt8) : IpStep → Prop
  | .next scan => ∃ full last, Readable full last ∧ scan = readState full last ∧
      (separated dot full ++ last).length ≤ 16 ∧
      (separated dot full ++ last = s ∨ 15 < (separated dot full ++ last).length)
  | .returns value => value = 0
  | .outside => Overruns s

/-- A dot ends a group. -/
theorem Readable.dot (readable : Readable full last) (group : IsGroup last) :
    Readable (full ++ [last]) [] := by
  have spare : full.length ≠ 4 := by
    intro full4
    rw [readable.spare full4] at group
    exact absurd group (by decide)
  refine ⟨?_, ?_, nofun, fun _ => rfl⟩
  · have few := readable.few
    rw [List.length_append, List.length_singleton]
    omega
  · exact List.forall_mem_append.mpr ⟨readable.groups, List.forall_mem_singleton.mpr group⟩

/-- A digit extends one of the four. -/
theorem Readable.digit (readable : Readable full last) {ip : UInt8} (digit : IsDigit ip)
    (inside : full.length < 4) : Readable full (last ++ [ip]) := by
  refine ⟨readable.few, readable.groups, ?_, ?_⟩
  · exact List.forall_mem_append.mpr ⟨readable.digits, List.forall_mem_singleton.mpr digit⟩
  · intro full4
    omega

/-- **The scan reads groups**, and says no more than it has read. -/
theorem scanIp_scanned (readable : Readable full last)
    (few : (separated dot full ++ last).length ≤ 16) (rest : List UInt8) :
    Scanned (separated dot full ++ last ++ rest) (scanIp rest (readState full last)) := by
  induction rest generalizing full last with
  | nil => exact ⟨full, last, readable, rfl, few, Or.inl (List.append_nil _).symm⟩
  | cons ip rest ih =>
      by_cases room : (separated dot full ++ last).length ≤ maxIpLength
      · rw [scanIp_cons (by rwa [toNat_length few])]
        have total := length_scanned full last
        by_cases isDot : ip = dot
        · subst isDot
          by_cases group : IsGroup last
          · rw [char_dot group]
            have few' : (separated dot (full ++ [last]) ++ []).length ≤ 16 := by
              rw [separated_concat, List.append_nil, List.length_append, List.length_singleton]
              exact Nat.succ_le_succ room
            have read := ih (readable.dot group) few'
            rwa [separated_concat, List.append_nil, List.append_assoc,
              List.singleton_append] at read
          · rw [char_dot_reject (by simp only [maxIpLength] at room; omega) readable.digits group]
            rfl
        · by_cases digit : IsDigit ip
          · by_cases inside : full.length < 4
            · rw [char_digit digit inside]
              have few' : (separated dot full ++ (last ++ [ip])).length ≤ 16 := by
                rw [← List.append_assoc, List.length_append, List.length_singleton]
                exact Nat.succ_le_succ room
              have read := ih (readable.digit digit inside) few'
              rwa [← List.append_assoc, List.append_assoc _ [ip], List.singleton_append] at read
            · have full4 : full.length = 4 := by
                have := readable.few
                omega
              rw [char_outside digit full4]
              have none := readable.spare full4
              subst none
              rw [List.append_nil] at room ⊢
              exact ⟨full, ip, rest, rfl, full4, readable.groups, digit, room⟩
          · rw [char_other isDot digit]
            rfl
      · have stopped : scanIp (ip :: rest) (readState full last) = .next (readState full last) := by
          rw [scanIp, if_neg (by rwa [toNat_length few])]
        rw [stopped]
        exact ⟨full, last, readable, rfl, few, Or.inr (Nat.lt_of_not_le room)⟩

/-- The digits of a group are read to its end. -/
theorem scanIp_digits {digits rest : List UInt8} (all : ∀ b ∈ digits, IsDigit b)
    (inside : full.length < 4) (few : (separated dot full ++ last ++ digits).length ≤ 16) :
    scanIp (digits ++ rest) (readState full last) =
      scanIp rest (readState full (last ++ digits)) := by
  induction digits generalizing last with
  | nil => rw [List.nil_append, List.append_nil]
  | cons b digits ih =>
      have bound := few
      rw [List.length_append, List.length_cons] at bound
      rw [List.cons_append, scanIp_cons, char_digit (all b List.mem_cons_self) inside]
      · show scanIp (digits ++ rest) (readState full (last ++ [b])) = _
        rw [ih, List.append_assoc, List.singleton_append]
        · exact fun c member => all c (List.mem_cons_of_mem b member)
        · rwa [← List.append_assoc, List.append_assoc _ [b], List.singleton_append]
      · rw [toNat_length (by omega)]
        simp only [maxIpLength]
        omega

/-- Groups with a dot behind each are read to their end. -/
theorem scanIp_groups {groups : List (List UInt8)} {rest : List UInt8}
    (all : ∀ group ∈ groups, IsGroup group) (inside : full.length + groups.length ≤ 4)
    (few : (separated dot (full ++ groups)).length ≤ 16) :
    scanIp (separated dot groups ++ rest) (readState full []) =
      scanIp rest (readState (full ++ groups) []) := by
  induction groups generalizing full with
  | nil => rw [separated_nil, List.nil_append, List.append_nil]
  | cons group groups ih =>
      rw [List.length_cons] at inside
      have isGroup := all group List.mem_cons_self
      have split : full ++ group :: groups = full ++ [group] ++ groups := by
        rw [List.append_assoc, List.singleton_append]
      have front : (separated dot full ++ group).length + 1 ≤ 16 := by
        rw [split] at few
        simp only [separated] at few ⊢
        rw [List.flatMap_append, List.flatMap_append, List.flatMap_singleton] at few
        simp only [List.length_append, List.length_singleton] at few ⊢
        omega
      rw [separated_cons, List.append_assoc, List.cons_append,
        scanIp_digits isGroup.2 (by omega) (by rw [List.append_nil]; omega), List.nil_append,
        scanIp_cons, char_dot isGroup]
      · show scanIp _ (readState (full ++ [group]) []) = _
        rw [ih (fun g member => all g (List.mem_cons_of_mem group member)), ← split]
        · rw [List.length_append, List.length_singleton]
          omega
        · rwa [← split]
      · rw [toNat_length (by omega)]
        simp only [maxIpLength]
        omega

/-- **A string of groups is scanned whole.** -/
theorem scanIp_readable (readable : Readable full last)
    (few : (separated dot full ++ last).length ≤ 16) (rest : List UInt8) :
    scanIp (separated dot full ++ last ++ rest) (readState [] []) =
      scanIp rest (readState full last) := by
  have bound := few
  rw [List.length_append] at bound
  rw [List.append_assoc, scanIp_groups readable.groups (by simpa using readable.few)
    (by rw [List.nil_append]; omega), List.nil_append]
  by_cases inside : full.length < 4
  · rw [scanIp_digits readable.digits inside (by rwa [List.append_nil]), List.nil_append]
  · have none := readable.spare (by have := readable.few; omega)
    rw [none, List.nil_append]

end Scan

/-! ### The verdict -/

/-- Accepted by `WIFI_CheckIP`. -/
def IpAccepted (s : List UInt8) : Prop :=
  ∃ full last, s = separated dot full ++ last ∧ Readable full last ∧ s.length ≤ 15 ∧
    (∀ group ∈ full, value group ≤ 255) ∧ value last % 65536 ≤ 255

theorem value_group {group : List UInt8} (isGroup : IsGroup group) :
    value group % 65536 = value group := by
  have below := value_lt isGroup.2
  have few : 10 ^ group.length ≤ 10 ^ 3 := Nat.pow_le_pow_right (by decide) isGroup.1.2
  omega

theorem ofNat_lt_256 (v : Nat) : UInt16.ofNat v < 256 ↔ v % 65536 ≤ 255 := by
  rw [UInt16.lt_iff_toNat_lt, UInt16.toNat_ofNat']
  show v % 65536 < 256 ↔ _
  omega

/-- The second loop: every group that was read is at most 255. -/
theorem nums_lt_256 {full : List (List UInt8)} {last : List UInt8} (readable : Readable full last) :
    (∀ n ∈ (nums (full ++ [last])).toList, n < 256) ↔
      (∀ group ∈ full, value group ≤ 255) ∧ value last % 65536 ≤ 255 := by
  have entries : (∀ n ∈ (nums (full ++ [last])).toList, n < 256) ↔
      ∀ k < 4, value ((full ++ [last]).getD k []) % 65536 ≤ 255 := by
    simp only [← ofNat_lt_256, Vector.mem_toList_iff, nums, Vector.mem_ofFn, Fin.exists_iff]
    constructor
    · intro small k bounded
      exact small _ ⟨k, bounded, rfl⟩
    · rintro small n ⟨k, bounded, rfl⟩
      exact small k bounded
  rw [entries]
  have more := readable.few
  constructor
  · intro small
    constructor
    · intro group member
      obtain ⟨k, inside, rfl⟩ := List.getElem_of_mem member
      have bound := small k (by omega)
      rwa [List.getD_eq_getElem?_getD, List.getElem?_append_left inside,
        List.getElem?_eq_getElem inside, Option.getD_some,
        value_group (readable.groups _ member)] at bound
    · by_cases four : full.length = 4
      · rw [readable.spare four]
        exact Nat.zero_le 255
      · have bound := small full.length (by omega)
        rwa [List.getD_eq_getElem?_getD, List.getElem?_concat_length, Option.getD_some] at bound
  · rintro ⟨groups, ended⟩ k -
    rw [List.getD_eq_getElem?_getD]
    rcases Nat.lt_trichotomy k full.length with before | rfl | after
    · have member := List.getElem_mem before
      rw [List.getElem?_append_left before, List.getElem?_eq_getElem before, Option.getD_some,
        value_group (readable.groups _ member)]
      exact groups _ member
    · rwa [List.getElem?_concat_length, Option.getD_some]
    · rw [List.getElem?_eq_none (by rw [List.length_append, List.length_singleton]; omega)]
      exact Nat.zero_le 255

theorem wifiCheckIp_eq (ip : CString) :
    wifiCheckIp ip =
      match scanIp ip.bytes (readState [] []) with
      | .next s =>
          if maxIpLength < s.length.toNat then some 0
          else if ∃ n ∈ s.num.toList, ¬ n < 256 then some 0
          else some 1
      | .returns value => some value
      | .outside => none := by
  have start : (⟨0, 0, 0, Vector.replicate 4 0⟩ : IpScan) = readState [] [] := by decide
  simp only [wifiCheckIp]
  rw [start]

/-- **What `WIFI_CheckIP` does**: it leaves `num` on the strings that overrun, and returns
1 on those it accepts. -/
theorem wifiCheckIp_cases (ip : CString) :
    (wifiCheckIp ip = none ∧ Overruns ip.bytes) ∨
      (wifiCheckIp ip = some 1 ∧ IpAccepted ip.bytes) ∨ wifiCheckIp ip = some 0 := by
  have start : Readable [] [] := ⟨by decide, nofun, nofun, fun _ => rfl⟩
  have scanned := scanIp_scanned start (by decide) ip.bytes
  rw [wifiCheckIp_eq]
  cases read : scanIp ip.bytes (readState [] []) with
  | next s =>
      rw [read] at scanned
      obtain ⟨full, last, readable, rfl, few, whole⟩ := scanned
      simp only
      rw [toNat_length few]
      split
      case isTrue => exact Or.inr (Or.inr rfl)
      case isFalse short =>
        replace whole : separated dot full ++ last = ip.bytes := whole.resolve_right short
        split
        case isTrue => exact Or.inr (Or.inr rfl)
        case isFalse small =>
          obtain ⟨groups, ended⟩ := (nums_lt_256 readable).mp fun n member =>
            not_not.mp fun large => small ⟨n, member, large⟩
          refine Or.inr (Or.inl ⟨rfl, full, last, whole.symm, readable, ?_, groups, ended⟩)
          rw [← whole]
          exact Nat.le_of_not_lt short
  | returns value =>
      rw [read] at scanned
      obtain rfl : value = 0 := scanned
      exact Or.inr (Or.inr rfl)
  | outside =>
      rw [read] at scanned
      exact Or.inl ⟨rfl, scanned⟩

theorem wifiCheckIp_of_accepted {ip : CString} (accepted : IpAccepted ip.bytes) :
    wifiCheckIp ip = some 1 := by
  obtain ⟨full, last, split, readable, short, groups, ended⟩ := accepted
  rw [split] at short
  have read := scanIp_readable readable (by omega) []
  rw [List.append_nil, ← split] at read
  rw [wifiCheckIp_eq, read]
  simp only [scanIp, toNat_length (Nat.le_succ_of_le short)]
  rw [if_neg (show ¬ maxIpLength < _ from Nat.not_lt_of_le short), if_neg]
  rintro ⟨n, member, large⟩
  exact large ((nums_lt_256 readable).mpr ⟨groups, ended⟩ n member)

theorem wifiCheckIp_of_overruns {ip : CString} (overruns : Overruns ip.bytes) :
    wifiCheckIp ip = none := by
  obtain ⟨full, digit, rest, split, four, groups, isDigit, short⟩ := overruns
  have readable : Readable full [] := ⟨four.le, groups, nofun, fun _ => rfl⟩
  have few : (separated dot full ++ []).length ≤ 16 := by
    rw [List.append_nil]
    omega
  have read := scanIp_readable readable few (digit :: rest)
  rw [List.append_nil, ← split] at read
  rw [wifiCheckIp_eq, read, scanIp_cons, char_outside isDigit four]
  rw [toNat_length few, List.append_nil]
  exact short

/-! ### The condition -/

theorem isGroup_dot {group : List UInt8} (isGroup : IsGroup group) : dot ∉ group :=
  dot_notMem isGroup.2

/-- A dotted quad is three groups with a dot behind each, and one more. -/
theorem isDottedQuad_iff (s : List UInt8) :
    IsDottedQuad s ↔ ∃ full last, s = separated dot full ++ last ∧ full.length = 3 ∧
      (∀ group ∈ full, IsGroup group ∧ value group ≤ 255) ∧ IsGroup last ∧ value last ≤ 255 := by
  constructor
  · rintro ⟨a, b, c, d, rfl, groups⟩
    refine ⟨[a, b, c], d, ?_, rfl, ?_, groups d (by simp)⟩
    · simp only [separated_cons, separated_nil, List.append_assoc, List.cons_append,
        List.nil_append]
    · intro group member
      exact groups group (List.mem_append_left [d] member)
  · rintro ⟨full, last, rfl, three, groups, ended⟩
    obtain ⟨a, b, c, rfl⟩ := List.length_eq_three.mp three
    refine ⟨a, b, c, last, ?_, ?_⟩
    · simp only [separated_cons, separated_nil, List.append_assoc, List.cons_append,
        List.nil_append]
    · intro group member
      rcases List.mem_append.mp (show group ∈ [a, b, c] ++ [last] from member) with before | now
      · exact groups group before
      · exact List.mem_singleton.mp now ▸ ended

theorem separated_length {full : List (List UInt8)} (groups : ∀ group ∈ full, IsGroup group) :
    (separated dot full).length ≤ 4 * full.length := by
  induction full with
  | nil => exact Nat.le_refl 0
  | cons group full ih =>
      have three := (groups group List.mem_cons_self).1.2
      have rest := ih fun g member => groups g (List.mem_cons_of_mem group member)
      rw [separated_cons, List.length_append, List.length_cons, List.length_cons]
      omega

/-- A string is accepted if it is a dotted quad, or loosely dotted. -/
theorem ipAccepted_iff (s : List UInt8) : IpAccepted s ↔ IsDottedQuad s ∨ LooselyDotted s := by
  rw [isDottedQuad_iff]
  constructor
  · rintro ⟨full, last, rfl, readable, short, groups, ended⟩
    have both : ∀ group ∈ full, IsGroup group ∧ value group ≤ 255 := fun group member =>
      ⟨readable.groups group member, groups group member⟩
    have more := readable.few
    by_cases quad : full.length = 3 ∧ IsGroup last
    · rw [value_group quad.2] at ended
      exact Or.inl ⟨full, last, rfl, quad.1, both, quad.2, ended⟩
    · refine Or.inr ⟨full, last, rfl, short, both, readable.digits, ended, ?_⟩
      by_cases four : full.length = 4
      · exact Or.inr (Or.inr ⟨four, readable.spare four⟩)
      · by_cases three : full.length = 3
        · exact Or.inr (Or.inl ⟨three, fun group => quad ⟨three, group⟩⟩)
        · exact Or.inl (by omega)
  · rintro (⟨full, last, rfl, three, groups, isGroup, ended⟩ |
      ⟨full, last, rfl, short, groups, digits, ended, loose⟩)
    · have all : ∀ group ∈ full, IsGroup group := fun group member => (groups group member).1
      refine ⟨full, last, rfl, ⟨by omega, all, isGroup.2, fun four => by omega⟩, ?_,
        fun group member => (groups group member).2, ?_⟩
      · have front := separated_length all
        have back := isGroup.1.2
        rw [List.length_append]
        omega
      · rwa [value_group isGroup]
    · refine ⟨full, last, rfl, ⟨?_, fun group member => (groups group member).1, digits, ?_⟩,
        short, fun group member => (groups group member).2, ended⟩
      · rcases loose with few | three | four <;> omega
      · intro four
        rcases loose with few | three | both
        · omega
        · omega
        · exact both.2

theorem not_isDottedQuad_of_loosely {s : List UInt8} (loosely : LooselyDotted s) :
    ¬ IsDottedQuad s := by
  obtain ⟨full, last, rfl, -, groups, digits, -, loose⟩ := loosely
  rw [isDottedQuad_iff]
  rintro ⟨full', last', same, three, groups', isGroup, -⟩
  obtain ⟨rfl, rfl⟩ := separated_inj (fun group member => isGroup_dot (groups group member).1)
    (fun group member => isGroup_dot (groups' group member).1) (dot_notMem digits)
    (isGroup_dot isGroup) same
  rcases loose with few | noGroup | four
  · omega
  · exact noGroup.2 isGroup
  · omega

/-- **`WIFI_CheckIP` stays in bounds and accepts exactly the dotted quads, but for the
strings that are loosely dotted or overrun.** -/
theorem wifiCheckIp_iff (ip : CString) :
    (∃ r, wifiCheckIp ip = some r ∧ (r = 1 ↔ IsDottedQuad ip.bytes)) ↔
      ¬ (LooselyDotted ip.bytes ∨ Overruns ip.bytes) := by
  constructor
  · rintro ⟨r, returned, exactly⟩ (loosely | overruns)
    · have accepted := wifiCheckIp_of_accepted ((ipAccepted_iff _).mpr (Or.inr loosely))
      rw [accepted] at returned
      exact not_isDottedQuad_of_loosely loosely (exactly.mp (Option.some.inj returned).symm)
    · rw [wifiCheckIp_of_overruns overruns] at returned
      cases returned
  · intro neither
    rcases wifiCheckIp_cases ip with ⟨-, overruns⟩ | ⟨one, accepted⟩ | zero
    · exact absurd (Or.inr overruns) neither
    · refine ⟨1, one, iff_of_true rfl ?_⟩
      exact ((ipAccepted_iff _).mp accepted).resolve_right fun loosely => neither (Or.inl loosely)
    · refine ⟨0, zero, iff_of_false (by decide) ?_⟩
      intro quad
      rw [wifiCheckIp_of_accepted ((ipAccepted_iff _).mpr (Or.inl quad))] at zero
      exact absurd zero (by decide)

/-- `1.1.1.1.1`: the last digit is added to `num[4]`. -/
theorem five_groups_overrun :
    ¬ ∀ ip : CString, ∃ r, wifiCheckIp ip = some r ∧ (r = 1 ↔ IsDottedQuad ip.bytes) := by
  intro all
  obtain ⟨r, returned, -⟩ := all ⟨[49, 46, 49, 46, 49, 46, 49, 46, 49], by decide⟩
  revert returned
  have overrun : wifiCheckIp ⟨[49, 46, 49, 46, 49, 46, 49, 46, 49], by decide⟩ = none := by decide
  rw [overrun]
  exact nofun

/-! ## `WIFI_CheckPort` -/

/-- `maxlength` of a port. -/
def maxPortLength : Nat := 5

/-- The variables of the scan. -/
structure PortScan where
  length : UInt8
  num : UInt32
  deriving DecidableEq, Repr

/-- The scanning loop: it stops at the NUL or at the length limit, and `none` is the
`return 0` at a character that is no digit. -/
def scanPort : List UInt8 → PortScan → Option PortScan
  | [], s => some s
  | port :: rest, s =>
      if s.length.toNat < maxPortLength then
        if IsDigit port then
          scanPort rest ⟨s.length + 1, UInt32.ofNat (s.num.toNat * 10 + (port.toNat - 48))⟩
        else none
      else some s

/-- `WIFI_CheckPort(port)`. -/
def wifiCheckPort (port : CString) : UInt8 :=
  match scanPort port.bytes ⟨0, 0⟩ with
  | some s =>
      if maxPortLength < s.length.toNat then 0
      else if 65535 < s.num.toNat then 0
      else 1
  | none => 0

/-- One to five digits with a value of at most 65535, and nothing else. -/
def IsPort (s : List UInt8) : Prop :=
  (1 ≤ s.length ∧ s.length ≤ 5) ∧ (∀ b ∈ s, IsDigit b) ∧ value s ≤ 65535

/-- The first five characters are all that is read. -/
def PortRead (s : List UInt8) : Prop := (∀ b ∈ s.take 5, IsDigit b) ∧ value (s.take 5) ≤ 65535

/-- The variables after some digits. -/
def portState (digits : List UInt8) : PortScan :=
  ⟨UInt8.ofNat digits.length, UInt32.ofNat (value digits)⟩

theorem portState_concat {digits : List UInt8} (all : ∀ b ∈ digits, IsDigit b)
    (few : digits.length < 5) (b : UInt8) :
    (⟨(portState digits).length + 1,
        UInt32.ofNat ((portState digits).num.toNat * 10 + (b.toNat - 48))⟩ : PortScan) =
      portState (digits ++ [b]) := by
  have below := value_lt all
  have small : 10 ^ digits.length ≤ 10 ^ 5 := Nat.pow_le_pow_right (by decide) few.le
  have kept : (UInt32.ofNat (value digits)).toNat = value digits := by
    rw [UInt32.toNat_ofNat']
    omega
  have count : UInt8.ofNat (digits ++ [b]).length = UInt8.ofNat digits.length + 1 := by
    rw [List.length_append]
    exact UInt8.ofNat_add _ _
  simp only [portState]
  rw [kept, value_concat, count]

/-- **The scan reads at most five digits.** -/
theorem scanPort_cases {digits : List UInt8} (all : ∀ b ∈ digits, IsDigit b)
    (few : digits.length ≤ 5) (rest : List UInt8) :
    (∀ b ∈ rest.take (5 - digits.length), IsDigit b) ∧
        scanPort rest (portState digits) =
          some (portState (digits ++ rest.take (5 - digits.length))) ∨
      (¬ ∀ b ∈ rest.take (5 - digits.length), IsDigit b) ∧
        scanPort rest (portState digits) = none := by
  induction rest generalizing digits with
  | nil =>
      left
      rw [List.take_nil, List.append_nil]
      exact ⟨nofun, rfl⟩
  | cons b rest ih =>
      have counted : (portState digits).length.toNat = digits.length := by
        simp only [portState]
        rw [UInt8.toNat_ofNat']
        omega
      simp only [scanPort]
      rw [counted]
      by_cases room : digits.length < 5
      · have next : 5 - digits.length = 5 - (digits ++ [b]).length + 1 := by
          rw [List.length_append, List.length_singleton]
          omega
        rw [if_pos (show _ < maxPortLength from room), next, List.take_succ_cons,
          List.forall_mem_cons]
        by_cases digit : IsDigit b
        · have all' : ∀ c ∈ digits ++ [b], IsDigit c :=
            List.forall_mem_append.mpr ⟨all, List.forall_mem_singleton.mpr digit⟩
          have few' : (digits ++ [b]).length ≤ 5 := by
            rw [List.length_append, List.length_singleton]
            exact room
          rw [if_pos digit, portState_concat all room]
          rcases ih all' few' with ⟨more, read⟩ | ⟨other, stopped⟩
          · left
            rw [read, List.append_assoc, List.singleton_append]
            exact ⟨⟨digit, more⟩, rfl⟩
          · right
            exact ⟨fun every => other every.2, stopped⟩
        · right
          rw [if_neg digit]
          exact ⟨fun every => digit every.1, rfl⟩
      · have full : 5 - digits.length = 0 := by omega
        left
        rw [if_neg (show ¬ _ < maxPortLength from room), full, List.take_zero, List.append_nil]
        exact ⟨nofun, rfl⟩

/-- `WIFI_CheckPort` returns 1 on what it reads to be a port. -/
theorem wifiCheckPort_eq_one (port : CString) : wifiCheckPort port = 1 ↔ PortRead port.bytes := by
  have noDigits : ∀ b ∈ ([] : List UInt8), IsDigit b := nofun
  have scanned := scanPort_cases noDigits (by decide) port.bytes
  rw [List.length_nil, Nat.sub_zero, List.nil_append] at scanned
  have start : (⟨0, 0⟩ : PortScan) = portState [] := by decide
  simp only [wifiCheckPort, PortRead]
  rw [start]
  rcases scanned with ⟨all, read⟩ | ⟨other, stopped⟩
  · have few : (port.bytes.take 5).length ≤ 5 := by
      rw [List.length_take]
      omega
    have below := value_lt all
    have small : 10 ^ (port.bytes.take 5).length ≤ 10 ^ 5 := Nat.pow_le_pow_right (by decide) few
    have length : (portState (port.bytes.take 5)).length.toNat = (port.bytes.take 5).length := by
      simp only [portState]
      rw [UInt8.toNat_ofNat']
      omega
    have num : (portState (port.bytes.take 5)).num.toNat = value (port.bytes.take 5) := by
      simp only [portState]
      rw [UInt32.toNat_ofNat']
      omega
    rw [read]
    simp only
    rw [length, num, if_neg (show ¬ maxPortLength < _ from Nat.not_lt_of_le few)]
    by_cases large : 65535 < value (port.bytes.take 5)
    · rw [if_pos large]
      exact iff_of_false (by decide) fun both => absurd both.2 (Nat.not_le_of_lt large)
    · rw [if_neg large]
      exact iff_of_true rfl ⟨all, Nat.le_of_not_lt large⟩
  · rw [stopped]
    exact iff_of_false (by decide) fun both => other both.1

/-- **`WIFI_CheckPort` accepts exactly the ports, but for the empty string and those whose
first five characters are a port.** -/
theorem wifiCheckPort_iff (port : CString) :
    (wifiCheckPort port = 1 ↔ IsPort port.bytes) ↔
      ¬ (port.bytes = [] ∨ 5 < port.bytes.length ∧ (∀ b ∈ port.bytes.take 5, IsDigit b) ∧
        value (port.bytes.take 5) ≤ 65535) := by
  rw [wifiCheckPort_eq_one]
  by_cases empty : port.bytes = []
  · rw [empty]
    refine iff_of_false ?_ (not_not.mpr (Or.inl rfl))
    intro same
    have isPort := same.mp ⟨nofun, Nat.zero_le _⟩
    exact absurd isPort.1.1 (by decide)
  · have positive := List.length_pos_of_ne_nil empty
    rw [or_iff_right empty]
    by_cases long : 5 < port.bytes.length
    · have notPort : ¬ IsPort port.bytes := fun isPort =>
        absurd isPort.1.2 (Nat.not_le_of_lt long)
      rw [iff_false_right notPort]
      exact not_congr (and_iff_right long).symm
    · refine iff_of_true ?_ fun both => long both.1
      have whole : port.bytes.take 5 = port.bytes := List.take_of_length_le (Nat.le_of_not_lt long)
      simp only [PortRead, IsPort]
      rw [whole]
      exact (and_iff_right (And.intro positive (Nat.le_of_not_lt long))).symm

/-- No digit at all is a port. -/
theorem empty_port_accepted :
    ¬ ∀ port : CString, wifiCheckPort port = 1 ↔ IsPort port.bytes := by
  intro all
  have isPort := (all ⟨[], by decide⟩).mp (by decide)
  exact absurd isPort.1.1 (by decide)

end EinkLiteOS.Device
