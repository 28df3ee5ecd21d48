import Mathlib.Data.Nat.Digits.Lemmas
import RuseonCore.Foundation.Calendar

/-!
# Times as text

Instants are counted in nanoseconds from the start of 1970 on a clock with a fixed
offset.  A layout is a sequence of fields and literal characters.  The formatter
writes numbers with a minimal width; the parser reads two digits (or one, where the
layout allows it), exactly four digits of a year, and a fraction of a second
although the layout has none.

A layout without full stops and commas is read back for every instant whose year
has four digits, whatever its fields.
-/

namespace RuseonCore
namespace TimeFormat

open Calendar

/-- Date and time of day. -/
structure Fields where
  year : Int
  month : Nat
  day : Nat
  hour : Nat
  minute : Nat
  second : Nat
  nanosecond : Nat
  deriving DecidableEq

/-- Instant of a date and time of day; days beyond the end of the month count on. -/
def Fields.instant (f : Fields) : Int :=
  (dayNumber f.year f.month f.day * 86400 + f.hour * 3600 + f.minute * 60 + f.second) *
    1000000000 + f.nanosecond

/-- Date and time of day of an instant. -/
def fieldsOf (t : Int) : Fields :=
  let date := civil (t / 1000000000 / 86400)
  let clock := (t / 1000000000 % 86400).toNat
  { year := date.year
    month := date.month
    day := date.day
    hour := clock / 3600
    minute := clock / 60 % 60
    second := clock % 60
    nanosecond := (t % 1000000000).toNat }

/-- Date and time of day exist. -/
structure Fields.Valid (f : Fields) : Prop where
  date : Date.Valid ⟨f.year, f.month, f.day⟩
  hour : f.hour < 24
  minute : f.minute < 60
  second : f.second < 60

theorem instant_fieldsOf (t : Int) : (fieldsOf t).instant = t := by
  have day := dayNumber_civil (t / 1000000000 / 86400)
  simp only [Fields.instant, fieldsOf, day]
  omega

theorem valid_fieldsOf (t : Int) : (fieldsOf t).Valid where
  date := valid_civil _
  hour := by
    simp only [fieldsOf]
    omega
  minute := by
    simp only [fieldsOf]
    omega
  second := by
    simp only [fieldsOf]
    omega

/-! ## Numbers -/

/-- A number with zeros in front up to the width. -/
def appendInt (x : Int) (width : Nat) : List Char :=
  let digits := (Nat.digits 10 x.natAbs).reverse.map Nat.digitChar
  (if x < 0 then ['-'] else []) ++ (List.replicate (width - digits.length) '0' ++ digits)

def digitValue (c : Char) : Nat :=
  c.toNat - 48

/-- Value of a sequence of digits. -/
def number (digits : List Char) : Nat :=
  digits.foldl (fun value c => 10 * value + digitValue c) 0

def atoi (text : List Char) : Option Nat :=
  if text.all Char.isDigit then some (number text) else none

/-- Read two digits, or one if the second character is none and the width is not
fixed. -/
def getnum (fixed : Bool) (value : List Char) : Option (Nat × List Char) :=
  match value with
  | [] => none
  | first :: rest =>
      if !first.isDigit then none
      else
        match rest with
        | second :: others =>
            if second.isDigit then some (number [first, second], others)
            else if fixed then none
            else some (number [first], rest)
        | [] => if fixed then none else some (number [first], [])

theorem isDigit_digitChar
    {digit : Nat}
    (small : digit < 10) :
    (Nat.digitChar digit).isDigit = true := by
  interval_cases digit <;> decide

theorem digitValue_digitChar
    {digit : Nat}
    (small : digit < 10) :
    digitValue (Nat.digitChar digit) = digit := by
  interval_cases digit <;> decide

theorem number_concat (digits : List Char) (c : Char) :
    number (digits ++ [c]) = 10 * number digits + digitValue c := by
  simp [number]

theorem number_replicate_append (count : Nat) (digits : List Char) :
    number (List.replicate count '0' ++ digits) = number digits := by
  have zero : digitValue '0' = 0 := by decide
  induction count with
  | zero => rfl
  | succ count inductionHypothesis =>
      rw [← inductionHypothesis, List.replicate_succ, List.cons_append]
      simp only [number, List.foldl_cons, zero, Nat.mul_zero, Nat.add_zero]

/-- Digits written from the most significant one on have the value they stand for. -/
theorem number_reverse
    {digits : List Nat}
    (small : ∀ digit ∈ digits, digit < 10) :
    number (digits.reverse.map Nat.digitChar) = Nat.ofDigits 10 digits := by
  induction digits with
  | nil => rfl
  | cons digit digits inductionHypothesis =>
      have rest := inductionHypothesis fun other member =>
        small other (List.mem_cons_of_mem _ member)
      rw [List.reverse_cons, List.map_append, List.map_singleton, number_concat, rest,
        digitValue_digitChar (small digit (List.mem_cons_self)), Nat.ofDigits_cons]
      exact Nat.add_comm _ _

section Natural

variable (n width : Nat)

theorem appendInt_natCast :
    appendInt n width =
      List.replicate (width - (Nat.digits 10 n).length) '0' ++
        (Nat.digits 10 n).reverse.map Nat.digitChar := by
  have sign : ¬ (n : Int) < 0 := by omega
  simp [appendInt, sign]

theorem length_appendInt :
    (appendInt n width).length = max width (Nat.digits 10 n).length := by
  rw [appendInt_natCast]
  simp only [List.length_append, List.length_replicate, List.length_map, List.length_reverse]
  omega

theorem isDigit_of_mem_appendInt
    {c : Char}
    (member : c ∈ appendInt n width) :
    c.isDigit = true := by
  rw [appendInt_natCast] at member
  rcases List.mem_append.mp member with zero | digit
  · rw [List.eq_of_mem_replicate zero]
    decide
  · obtain ⟨value, inDigits, rfl⟩ := List.mem_map.mp digit
    exact isDigit_digitChar (Nat.digits_lt_base (by decide) (List.mem_reverse.mp inDigits))

theorem number_appendInt : number (appendInt n width) = n := by
  rw [appendInt_natCast, number_replicate_append,
    number_reverse fun digit member => Nat.digits_lt_base (by decide) member, Nat.ofDigits_digits]

end Natural

/-- A number below 100 is written with two digits. -/
theorem length_twoDigits
    {n : Nat}
    (small : n < 100) :
    (appendInt n 2).length = 2 := by
  have short : (Nat.digits 10 n).length ≤ 2 := (Nat.digits_length_le_iff (by decide) n).mpr small
  rw [length_appendInt]
  omega

/-- A number below 100 is written with two digits and read back. -/
theorem getnum_appendInt
    {n : Nat}
    (small : n < 100)
    (fixed : Bool)
    (rest : List Char) :
    getnum fixed (appendInt n 2 ++ rest) = some (n, rest) := by
  obtain ⟨first, second, text⟩ := List.length_eq_two.mp (length_twoDigits small)
  have firstDigit := isDigit_of_mem_appendInt n 2 (c := first) (by simp [text])
  have secondDigit := isDigit_of_mem_appendInt n 2 (c := second) (by simp [text])
  have value := number_appendInt n 2
  rw [text] at value ⊢
  simp [getnum, firstDigit, secondDigit, value]

/-! ## Layouts -/

/-- Parts of a layout; literals are not spaces. -/
inductive Chunk where
  | literal (c : Char)
  | longYear
  | zeroMonth
  | zeroDay
  | hour
  | zeroMinute
  | zeroSecond
  deriving DecidableEq

/-- Text of a field. -/
def Chunk.format (f : Fields) : Chunk → List Char
  | .literal c => [c]
  | .longYear => appendInt f.year 4
  | .zeroMonth => appendInt f.month 2
  | .zeroDay => appendInt f.day 2
  | .hour => appendInt f.hour 2
  | .zeroMinute => appendInt f.minute 2
  | .zeroSecond => appendInt f.second 2

/-- A fraction of a second, cut off after nine digits. -/
def fraction : List Char → Option (Nat × List Char)
  | point :: digit :: rest =>
      if (point == '.' || point == ',') && digit.isDigit then
        let digits := ((digit :: rest).takeWhile Char.isDigit).take 9
        some (number digits * 10 ^ (9 - digits.length), rest.dropWhile Char.isDigit)
      else none
  | _ => none

/-- Read a field; nothing is returned when it is missing or out of range. -/
def Chunk.parse (f : Fields) (value : List Char) : Chunk → Option (Fields × List Char)
  | .literal c =>
      match value with
      | [] => none
      | first :: rest => if first = c then some (f, rest) else none
  | .longYear =>
      if 4 ≤ value.length && value.head?.any Char.isDigit then do
        let year ← atoi (value.take 4)
        return ({ f with year := year }, value.drop 4)
      else none
  | .zeroMonth => do
      let (n, rest) ← getnum true value
      if n = 0 || 12 < n then none else some ({ f with month := n }, rest)
  | .zeroDay => do
      let (n, rest) ← getnum true value
      return ({ f with day := n }, rest)
  | .hour => do
      let (n, rest) ← getnum false value
      if 24 ≤ n then none else some ({ f with hour := n }, rest)
  | .zeroMinute => do
      let (n, rest) ← getnum true value
      if 60 ≤ n then none else some ({ f with minute := n }, rest)
  | .zeroSecond => do
      let (n, rest) ← getnum true value
      if 60 ≤ n then none
      else
        match fraction rest with
        | some (nanosecond, rest) => some ({ f with second := n, nanosecond }, rest)
        | none => some ({ f with second := n }, rest)

/-- Read the fields of a layout in turn. -/
def parseFields : List Chunk → Fields → List Char → Option Fields
  | [], f, value => if value.isEmpty then some f else none
  | chunk :: layout, f, value => do
      let (f, rest) ← chunk.parse f value
      parseFields layout f rest

def format (layout : List Chunk) (t : Int) : List Char :=
  layout.flatMap (Chunk.format (fieldsOf t))

/-- Fields that a layout does not set. -/
def defaultFields : Fields where
  year := 0
  month := 1
  day := 1
  hour := 0
  minute := 0
  second := 0
  nanosecond := 0

def parse (layout : List Chunk) (value : List Char) : Option Int := do
  let f ← parseFields layout defaultFields value
  if 1 ≤ f.day && f.day ≤ daysIn f.month f.year then some f.instant else none

/-! ## Reading back -/

/-- Take over a field. -/
def Chunk.put (source f : Fields) : Chunk → Fields
  | .literal _ => f
  | .longYear => { f with year := source.year }
  | .zeroMonth => { f with month := source.month }
  | .zeroDay => { f with day := source.day }
  | .hour => { f with hour := source.hour }
  | .zeroMinute => { f with minute := source.minute }
  | .zeroSecond => { f with second := source.second }

/-- Text that holds neither full stops nor commas. -/
def Pointless (text : List Char) : Prop :=
  '.' ∉ text ∧ ',' ∉ text

theorem fraction_of_pointless
    {text : List Char}
    (pointless : Pointless text) :
    fraction text = none := by
  match text with
  | [] => rfl
  | [_] => rfl
  | point :: digit :: rest =>
      have period : point ≠ '.' := fun same => pointless.1 (same ▸ List.mem_cons_self)
      have comma : point ≠ ',' := fun same => pointless.2 (same ▸ List.mem_cons_self)
      simp [fraction, period, comma]

theorem mem_appendInt
    {x : Int}
    {width : Nat}
    {c : Char}
    (member : c ∈ appendInt x width) :
    c = '-' ∨ c.isDigit = true := by
  rcases List.mem_append.mp member with sign | number
  · split at sign
    · exact .inl (List.mem_singleton.mp sign)
    · cases sign
  · have natural : c ∈ appendInt x.natAbs width := by
      rw [appendInt_natCast]
      simpa using number
    exact .inr (isDigit_of_mem_appendInt _ _ natural)

/-- Texts consist of the literals of the layout, digits and signs. -/
theorem not_mem_format
    {c : Char}
    (sign : c ≠ '-')
    (digit : c.isDigit = false)
    {layout : List Chunk}
    (absent : .literal c ∉ layout)
    (source : Fields) :
    c ∉ layout.flatMap (Chunk.format source) := by
  intro member
  obtain ⟨chunk, inLayout, inChunk⟩ := List.mem_flatMap.mp member
  cases chunk with
  | literal other =>
      obtain rfl := List.mem_singleton.mp inChunk
      exact absent inLayout
  | longYear | zeroMonth | zeroDay | hour | zeroMinute | zeroSecond =>
      rcases mem_appendInt inChunk with same | isDigit
      · exact sign same
      · rw [digit] at isDigit
        cases isDigit

/-- A layout without full stops and commas. -/
def Plain (layout : List Chunk) : Prop :=
  .literal '.' ∉ layout ∧ .literal ',' ∉ layout

theorem pointless_format
    {layout : List Chunk}
    (plain : Plain layout)
    (source : Fields) :
    Pointless (layout.flatMap (Chunk.format source)) :=
  ⟨not_mem_format (by decide) (by decide) plain.1 source,
    not_mem_format (by decide) (by decide) plain.2 source⟩

/-- A year of four digits. -/
def Fields.FourDigits (f : Fields) : Prop :=
  0 ≤ f.year ∧ f.year ≤ 9999

instance (f : Fields) : Decidable f.FourDigits :=
  inferInstanceAs (Decidable (0 ≤ f.year ∧ f.year ≤ 9999))

/-- A year of four digits is read back. -/
theorem parse_longYear
    {source : Fields}
    (fourDigits : source.FourDigits)
    (f : Fields)
    (rest : List Char) :
    Chunk.longYear.parse f (appendInt source.year 4 ++ rest) =
      some ({ f with year := source.year }, rest) := by
  obtain ⟨n, year⟩ := Int.eq_ofNat_of_zero_le fourDigits.1
  have small : n < 10 ^ 4 := by
    have := fourDigits.2
    omega
  have short : (Nat.digits 10 n).length ≤ 4 := (Nat.digits_length_le_iff (by decide) n).mpr small
  have length : (appendInt n 4).length = 4 := by
    rw [length_appendInt]
    omega
  have digits : (appendInt n 4).all Char.isDigit = true :=
    List.all_eq_true.mpr fun c member => isDigit_of_mem_appendInt n 4 member
  have head : (appendInt n 4 ++ rest).head?.any Char.isDigit = true := by
    cases text : appendInt n 4 with
    | nil => simp [text] at length
    | cons first others => simpa using isDigit_of_mem_appendInt n 4 (by rw [text]; simp)
  have front : (appendInt n 4 ++ rest).take 4 = appendInt n 4 := by
    exact List.take_left' length
  have back : (appendInt n 4 ++ rest).drop 4 = rest := by
    exact List.drop_left' length
  have long : 4 ≤ (appendInt n 4 ++ rest).length := by
    rw [List.length_append]
    omega
  rw [year, Chunk.parse, if_pos (by simp only [head, long, decide_true, Bool.and_true]), front,
    back]
  simp [atoi, digits, number_appendInt]

/-- A field that was written is read back. -/
theorem Chunk.parse_format
    {source : Fields}
    (valid : source.Valid)
    (chunk : Chunk)
    (fourDigits : chunk = .longYear → source.FourDigits)
    (f : Fields)
    {rest : List Char}
    (pointless : Pointless rest) :
    chunk.parse f (chunk.format source ++ rest) = some (chunk.put source f, rest) := by
  have month : source.month ≤ 12 := valid.date.month_le
  have monthPos : 1 ≤ source.month := valid.date.month_pos
  have day : source.day < 100 := by
    have length := valid.date.day_le
    have months : daysIn source.month source.year ≤ 31 := by
      unfold daysIn
      split <;> (try split) <;> omega
    exact Nat.lt_of_le_of_lt (length.trans months) (by decide)
  have hour := valid.hour
  have minute := valid.minute
  have second := valid.second
  cases chunk with
  | literal c => simp [Chunk.parse, Chunk.format, Chunk.put]
  | longYear => exact parse_longYear (fourDigits rfl) f rest
  | zeroMonth =>
      rw [Chunk.parse, Chunk.format, getnum_appendInt (by omega)]
      have inside : ¬ (source.month = 0 ∨ 12 < source.month) := by omega
      simp [Chunk.put, inside]
  | zeroDay =>
      rw [Chunk.parse, Chunk.format, getnum_appendInt day]
      rfl
  | hour =>
      rw [Chunk.parse, Chunk.format, getnum_appendInt (by omega)]
      simp [Chunk.put, Nat.not_le.mpr hour]
  | zeroMinute =>
      rw [Chunk.parse, Chunk.format, getnum_appendInt (by omega)]
      simp [Chunk.put, Nat.not_le.mpr minute]
  | zeroSecond =>
      rw [Chunk.parse, Chunk.format, getnum_appendInt (by omega)]
      simp [Chunk.put, Nat.not_le.mpr second, fraction_of_pointless pointless]

/-- The fields of a layout are read back. -/
theorem parseFields_format
    {source : Fields}
    (valid : source.Valid)
    {layout : List Chunk}
    (plain : Plain layout)
    (fourDigits : .longYear ∈ layout → source.FourDigits)
    (f : Fields) :
    parseFields layout f (layout.flatMap (Chunk.format source)) =
      some (layout.foldl (fun f chunk => chunk.put source f) f) := by
  induction layout generalizing f with
  | nil => rfl
  | cons chunk layout inductionHypothesis =>
      have plainRest : Plain layout :=
        ⟨fun member => plain.1 (List.mem_cons_of_mem _ member),
          fun member => plain.2 (List.mem_cons_of_mem _ member)⟩
      have here := Chunk.parse_format valid chunk
        (fun year => fourDigits (year ▸ List.mem_cons_self)) f (pointless_format plainRest source)
      rw [List.flatMap_cons, parseFields, here]
      exact inductionHypothesis plainRest
        (fun member => fourDigits (List.mem_cons_of_mem _ member)) _

/-- A year that has not four digits is not read back where a dash must follow. -/
theorem parseFields_longYear_eq_none
    {source : Fields}
    (long : ¬ source.FourDigits)
    (layout : List Chunk)
    (f : Fields) :
    parseFields (.longYear :: .literal '-' :: layout) f
      ((Chunk.longYear :: .literal '-' :: layout).flatMap (Chunk.format source)) = none := by
  rw [List.flatMap_cons, Chunk.format, parseFields]
  generalize ((Chunk.literal '-' :: layout).flatMap (Chunk.format source)) = rest
  by_cases negative : source.year < 0
  · have sign : ∃ others, appendInt source.year 4 ++ rest = '-' :: others :=
      ⟨_, by simp only [appendInt, negative, if_true, List.cons_append, List.nil_append]; rfl⟩
    obtain ⟨others, text⟩ := sign
    have notDigit : Char.isDigit '-' = false := by decide
    simp [text, Chunk.parse, notDigit]
  · obtain ⟨n, year⟩ := Int.eq_ofNat_of_zero_le (Int.not_lt.mp negative)
    have large : 10 ^ 4 ≤ n := by
      unfold Fields.FourDigits at long
      omega
    have many : 4 < (appendInt n 4).length := by
      rw [length_appendInt]
      exact lt_max_of_lt_right ((Nat.lt_digits_length_iff (by decide) n).mpr large)
    have fifth : ∃ c others, (appendInt n 4 ++ rest).drop 4 = c :: others ∧ c.isDigit = true := by
      refine ⟨(appendInt n 4)[4], (appendInt n 4).drop 5 ++ rest, ?_,
        isDigit_of_mem_appendInt n 4 (List.getElem_mem many)⟩
      rw [List.drop_append_of_le_length many.le, List.drop_eq_getElem_cons many]
      rfl
    obtain ⟨c, others, text, digit⟩ := fifth
    have notDash : c ≠ '-' := by
      rintro rfl
      revert digit
      decide
    rw [year]
    simp only [Chunk.parse]
    split
    · cases found : atoi ((appendInt n 4 ++ rest).take 4) with
      | none => simp
      | some value => simp [parseFields, Chunk.parse, text, notDash]
    · simp

end TimeFormat
end RuseonCore
