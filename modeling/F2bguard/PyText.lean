/-
Python text, as far as the guard reads and writes it.

The receiver, the helper and the sender all handle `str` values: IP literals,
identifiers, lines of a table or of a whitelist. A `str` is a sequence of code
points, so the model is `List Char`, and the operations below are the `str`
methods the sources call, under Python's names where Lean allows them.

A `str` can also hold lone surrogates, which arise from a `\ud800` in a JSON text
and which no `Char` is. A text writes such a code point with two characters, led by
the noncharacter U+10FFFF, and writes U+10FFFF itself twice. `code_points` reads
the code points back (`code_points_text`), so two strings that differ are two texts
that differ. No function of the sources accepts a text that holds one of them and
then depends on its length or on where it sorts.

Nothing in this file is about the guard. It is the reading and printing of
numbers in two bases, what `int()` accepts, splitting and joining on one character,
and lines.
-/
import Mathlib.Tactic
import Mathlib.Data.List.DropRight

set_option autoImplicit false

namespace F2bguard.PyText

/-- A Python `str`. -/
abbrev Text := List Char

/-- A condition on the characters of a text is evaluated by going through the text. -/
instance decidable_forall_mem (l : Text) (p : Char → Prop) [DecidablePred p] :
    Decidable (∀ c ∈ l, p c) := List.decidableBAll p l

/-- Texts are compared character by character. -/
instance lawful_beq_text : LawfulBEq Text := List.instLawfulBEq

/-! ## Code points

The coding of lone surrogates. Only the two functions that look at code points, printing JSON and
parsing a date, take a text apart this way; to all others a text is its characters. -/

/-- The noncharacter U+10FFFF, which leads the code points that take two characters. -/
def escape_mark : Char := Char.ofNat 0x10ffff

/-- The surrogates, which UTF-16 uses in pairs. -/
def is_surrogate (n : ℕ) : Bool := 0xd800 ≤ n && n < 0xe000

/-- The characters that stand for a code point: itself, unless it is a lone surrogate or the mark. -/
def of_code_point (n : ℕ) : Text :=
  if is_surrogate n then [escape_mark, Char.ofNat (0x100000 + (n - 0xd800))]
  else if n = 0x10ffff then [escape_mark, escape_mark]
  else [Char.ofNat n]

/-- The code points of a text. A mark that nothing explains is taken for itself, so that the
function is total; `of_code_point` never leaves one. -/
def code_points : Text → List ℕ
  | [] => []
  | [c] => [c.toNat]
  | c :: d :: s =>
      if c = escape_mark then
        if d = escape_mark then 0x10ffff :: code_points s
        else if 0x100000 ≤ d.toNat ∧ d.toNat < 0x100800 then
          (0xd800 + (d.toNat - 0x100000)) :: code_points s
        else c.toNat :: code_points (d :: s)
      else c.toNat :: code_points (d :: s)

theorem code_points_cons {c : Char} (hc : c ≠ escape_mark) (s : Text) :
    code_points (c :: s) = c.toNat :: code_points s := by
  cases s with
  | nil => rfl
  | cons d s => rw [code_points, if_neg hc]

/-- In a text without the mark every character is a code point. -/
theorem code_points_of_not_mem {s : Text} (h : escape_mark ∉ s) :
    code_points s = s.map Char.toNat := by
  induction s with
  | nil => rfl
  | cons c cs ih =>
    rw [List.mem_cons, not_or] at h
    rw [code_points_cons (Ne.symm h.1), ih h.2, List.map_cons]

theorem toNat_ofNat {n : ℕ} (h : n.isValidChar) : (Char.ofNat n).toNat = n := by
  rw [Char.ofNat, dif_pos h]
  rfl

/-- One code point at a time. The three cases are those of `of_code_point`. -/
theorem code_points_append {n : ℕ} (hn : n ≤ 0x10ffff) (s : Text) :
    code_points (of_code_point n ++ s) = n :: code_points s := by
  unfold of_code_point is_surrogate
  split
  · rename_i hsurrogate
    simp only [Bool.and_eq_true, decide_eq_true_eq] at hsurrogate
    have hvalid : (0x100000 + (n - 0xd800)).isValidChar := .inr ⟨by omega, by omega⟩
    have hnat := toNat_ofNat hvalid
    have hne : Char.ofNat (0x100000 + (n - 0xd800)) ≠ escape_mark := by
      intro h
      have hmark := congrArg Char.toNat h
      rw [hnat, show escape_mark.toNat = 0x10ffff by decide] at hmark
      omega
    have hback : 0xd800 + (0x100000 + (n - 0xd800) - 0x100000) = n := by omega
    rw [List.cons_append, List.cons_append, List.nil_append, code_points, if_pos rfl, if_neg hne,
      hnat, if_pos ⟨by omega, by omega⟩, hback]
  split
  · rename_i hmark
    rw [hmark, List.cons_append, List.cons_append, List.nil_append, code_points, if_pos rfl,
      if_pos rfl]
  · rename_i hsurrogate hmark
    simp only [Bool.and_eq_true, decide_eq_true_eq, not_and, not_lt] at hsurrogate
    have hvalid : n.isValidChar := by
      rcases Nat.lt_or_ge n 0xd800 with h | h
      · exact .inl h
      · exact .inr ⟨by have := hsurrogate h; omega, by omega⟩
    have hnat := toNat_ofNat hvalid
    have hne : Char.ofNat n ≠ escape_mark := by
      intro h
      have hval := congrArg Char.toNat h
      rw [hnat, show escape_mark.toNat = 0x10ffff by decide] at hval
      exact hmark hval
    rw [List.cons_append, List.nil_append, code_points_cons hne, hnat]

/-- The text of a string holds its code points, so distinct strings have distinct texts. -/
theorem code_points_text {points : List ℕ} (h : ∀ n ∈ points, n ≤ 0x10ffff) :
    code_points (points.flatMap of_code_point) = points := by
  induction points with
  | nil => rfl
  | cons n points ih =>
    rw [List.flatMap_cons, code_points_append (h n List.mem_cons_self),
      ih (fun m hm => h m (List.mem_cons_of_mem _ hm))]

/-! ## Digits

Numbers in base ten and sixteen, printed and read back. -/

/-- The ASCII decimal digits, `str.isascii() and str.isdigit()` for one character. -/
def is_digit (c : Char) : Bool := '0' ≤ c && c ≤ '9'

/-- The value of one hexadecimal digit in either case. -/
def hex_digit (c : Char) : Option Nat :=
  if '0' ≤ c ∧ c ≤ '9' then some (c.toNat - 48)
  else if 'a' ≤ c ∧ c ≤ 'f' then some (c.toNat - 87)
  else if 'A' ≤ c ∧ c ≤ 'F' then some (c.toNat - 55)
  else none

/-- The characters `'%x'` prints: decimal digits and `a` to `f`. -/
def is_hex_lower (c : Char) : Bool := is_digit c || ('a' ≤ c && c ≤ 'f')

/-- `'%x' % n`. -/
def to_hex (n : ℕ) : Text := Nat.toDigits 16 n

/-- `str(n)` of a natural number. -/
def to_dec (n : ℕ) : Text := Nat.toDigits 10 n

/-- `int(s, 16)` on a text of hexadecimal digits, `none` on any other character. -/
def of_hex (s : Text) : Option ℕ :=
  s.foldlM (fun acc c => (hex_digit c).map (fun d => 16 * acc + d)) 0

/-- `int(s)` on a text of decimal digits. What it makes of other characters is not used. -/
def of_dec (s : Text) : ℕ := Nat.ofDigitChars 10 s 0

theorem hex_digit_digitChar {d : ℕ} (hd : d < 16) : hex_digit (Nat.digitChar d) = some d := by
  interval_cases d <;> decide

theorem is_hex_lower_digitChar {d : ℕ} (hd : d < 16) : is_hex_lower (Nat.digitChar d) = true := by
  interval_cases d <;> decide

theorem of_hex_append_digit (s : Text) (c : Char) :
    of_hex (s ++ [c]) = (of_hex s).bind (fun acc => (hex_digit c).map (fun d => 16 * acc + d)) := by
  simp only [of_hex, List.foldlM_append, List.foldlM_cons, List.foldlM_nil, bind_pure]
  rfl

/-- Reading back a printed hexadecimal number. The induction peels the last digit,
which is how `Nat.toDigits` is characterised. -/
theorem of_hex_to_hex (n : ℕ) : of_hex (to_hex n) = some n := by
  induction n using Nat.strong_induction_on with
  | _ n ih =>
    by_cases hn : n < 16
    · rw [to_hex, Nat.toDigits_of_lt_base hn]
      have hd := hex_digit_digitChar hn
      simp only [of_hex, List.foldlM_cons, List.foldlM_nil, hd, Option.map_some]
      simp
    · have hdiv : n / 16 < n := by omega
      have hmod : n % 16 < 16 := Nat.mod_lt _ (by norm_num)
      have hsplit : to_hex n = to_hex (n / 16) ++ [Nat.digitChar (n % 16)] :=
        Nat.toDigits_of_base_le (by norm_num) (by omega)
      rw [hsplit, of_hex_append_digit, ih _ hdiv, Option.bind_some, hex_digit_digitChar hmod,
        Option.map_some]
      congr 1
      omega

theorem mem_to_hex {n : ℕ} : ∀ {c : Char}, c ∈ to_hex n → is_hex_lower c = true := by
  induction n using Nat.strong_induction_on with
  | _ n ih =>
    intro c hc
    by_cases hn : n < 16
    · rw [to_hex, Nat.toDigits_of_lt_base hn, List.mem_singleton] at hc
      rw [hc]
      exact is_hex_lower_digitChar hn
    · have hsplit : to_hex n = to_hex (n / 16) ++ [Nat.digitChar (n % 16)] :=
        Nat.toDigits_of_base_le (by norm_num) (by omega)
      rw [hsplit, List.mem_append, List.mem_singleton] at hc
      rcases hc with h | h
      · exact ih _ (by omega) h
      · rw [h]
        exact is_hex_lower_digitChar (Nat.mod_lt _ (by norm_num))

@[simp] theorem to_hex_ne_nil (n : ℕ) : to_hex n ≠ [] := Nat.toDigits_ne_nil

@[simp] theorem to_hex_zero : to_hex 0 = ['0'] := Nat.toDigits_zero 16

theorem to_hex_injective : Function.Injective to_hex := by
  intro m n h
  have hm := of_hex_to_hex m
  rw [h, of_hex_to_hex] at hm
  exact (Option.some.inj hm).symm

theorem to_hex_length_le {n k : ℕ} (hk : 0 < k) : (to_hex n).length ≤ k ↔ n < 16 ^ k :=
  Nat.length_toDigits_le_iff (by norm_num) hk

@[simp] theorem to_dec_ne_nil (n : ℕ) : to_dec n ≠ [] := Nat.toDigits_ne_nil

@[simp] theorem of_dec_to_dec (n : ℕ) : of_dec (to_dec n) = n := Nat.ofDigitChars_ten_toDigits

theorem to_dec_injective : Function.Injective to_dec :=
  Function.LeftInverse.injective of_dec_to_dec

theorem is_digit_iff {c : Char} : is_digit c = true ↔ c.isDigit = true := by
  simp only [is_digit, Char.isDigit, Bool.and_eq_true, decide_eq_true_eq]
  exact Iff.rfl

theorem mem_to_dec {n : ℕ} {c : Char} (hc : c ∈ to_dec n) : is_digit c = true :=
  is_digit_iff.mpr (Nat.isDigit_of_mem_toDigits (by norm_num) (by norm_num) hc)

theorem to_dec_length_le {n k : ℕ} (hk : 0 < k) : (to_dec n).length ≤ k ↔ n < 10 ^ k :=
  Nat.length_toDigits_le_iff (by norm_num) hk

/-- A printed number starts with `0` only when it is zero. -/
theorem to_dec_head {n : ℕ} (hn : n ≠ 0) : (to_dec n).head? ≠ some '0' := by
  induction n using Nat.strong_induction_on with
  | _ n ih =>
    by_cases h10 : n < 10
    · rw [to_dec, Nat.toDigits_of_lt_base h10]
      interval_cases n <;> simp_all [Nat.digitChar]
    · have hsplit : to_dec n = to_dec (n / 10) ++ [Nat.digitChar (n % 10)] :=
        Nat.toDigits_of_base_le (by norm_num) (by omega)
      rw [hsplit, List.head?_append_of_ne_nil _ (to_dec_ne_nil _)]
      exact ih (n / 10) (by omega) (by omega)

/-! ## Joining and splitting

Separators of one character are all the sources use. Joining and splitting are inverse to each
other when no part holds the separator. -/

/-- `sep.join(parts)` for a separator of one character. -/
def join (sep : Char) (parts : List Text) : Text := [sep].intercalate parts

/-- `s.split(sep)` for a separator of one character. -/
def split (sep : Char) (s : Text) : List Text := s.splitOn sep

theorem split_join {sep : Char} {parts : List Text} (hne : parts ≠ [])
    (hsep : ∀ p ∈ parts, sep ∉ p) : split sep (join sep parts) = parts :=
  List.splitOn_intercalate sep hsep hne

theorem split_of_not_mem {sep : Char} {s : Text} (h : sep ∉ s) : split sep s = [s] :=
  List.splitOn_eq_singleton h

@[simp] theorem join_singleton (sep : Char) (p : Text) : join sep [p] = p := by
  simp [join]

theorem join_cons_cons (sep : Char) (p q : Text) (ps : List Text) :
    join sep (p :: q :: ps) = p ++ sep :: join sep (q :: ps) := by
  simp [join]

/-- A character of a joined text is the separator or comes from one part. -/
theorem mem_join {sep c : Char} : ∀ {parts : List Text},
    c ∈ join sep parts → c = sep ∨ ∃ p ∈ parts, c ∈ p
  | [], h => by simp [join] at h
  | [p], h => by
      rw [join_singleton] at h
      exact Or.inr ⟨p, by simp, h⟩
  | p :: q :: ps, h => by
      rw [join_cons_cons, List.mem_append, List.mem_cons] at h
      rcases h with h | h | h
      · exact Or.inr ⟨p, by simp, h⟩
      · exact Or.inl h
      · rcases mem_join h with hs | ⟨r, hr, hc⟩
        · exact Or.inl hs
        · exact Or.inr ⟨r, List.mem_cons_of_mem _ hr, hc⟩

/-- The length of a joined text: the parts, and one separator between neighbours. -/
theorem join_length (sep : Char) (parts : List Text) :
    (join sep parts).length = (parts.map List.length).sum + (parts.length - 1) := by
  induction parts with
  | nil => simp [join]
  | cons p ps ih =>
    cases ps with
    | nil => simp
    | cons q qs =>
      rw [join_cons_cons, List.length_append, List.length_cons, ih]
      simp only [List.map_cons, List.sum_cons, List.length_cons]
      omega

/-! ## White space and lines

`str.strip` and `str.splitlines` go by the classes of Unicode, and the two classes differ: a tab
is white space and ends no line, and a file that was written with `\n` may be read with more lines
than were written. -/

/-- The characters `str.strip()` removes. -/
def is_space (c : Char) : Bool :=
  (9 ≤ c.toNat && c.toNat ≤ 13) || (28 ≤ c.toNat && c.toNat ≤ 32) || c.toNat == 0x85
    || c.toNat == 0xa0 || c.toNat == 0x1680 || (0x2000 ≤ c.toNat && c.toNat ≤ 0x200a)
    || c.toNat == 0x2028 || c.toNat == 0x2029 || c.toNat == 0x202f || c.toNat == 0x205f
    || c.toNat == 0x3000

/-- `s.strip()`. -/
def strip (s : Text) : Text := (s.dropWhile is_space).rdropWhile is_space

/-- The characters that end a line for `str.splitlines()`. -/
def is_line_end (c : Char) : Bool :=
  (10 ≤ c.toNat && c.toNat ≤ 13) || (28 ≤ c.toNat && c.toNat ≤ 30) || c.toNat == 0x85
    || c.toNat == 0x2028 || c.toNat == 0x2029

/-- `splitlines` with the line read so far, in reverse. A carriage return and a line feed together
end one line, and a text that ends with a line end has no further empty line. -/
def splitlines_from : Text → Text → List Text
  | line, [] => if line = [] then [] else [line.reverse]
  | line, '\r' :: '\n' :: cs => line.reverse :: splitlines_from [] cs
  | line, c :: cs =>
      if is_line_end c then line.reverse :: splitlines_from [] cs
      else splitlines_from (c :: line) cs

/-- `s.splitlines()`. -/
def splitlines (s : Text) : List Text := splitlines_from [] s

theorem splitlines_from_line (line cs : Text) (p : Text) (h : ∀ c ∈ p, is_line_end c = false) :
    splitlines_from line (p ++ '\n' :: cs) = (line.reverse ++ p) :: splitlines_from [] cs := by
  induction p generalizing line with
  | nil =>
    rw [List.nil_append, splitlines_from]
    · simp [is_line_end]
    · intro cs' h1 _
      exact absurd h1 (by decide)
  | cons c p ih =>
    have hc : is_line_end c = false := h c (by simp)
    rw [List.cons_append, splitlines_from]
    · rw [if_neg (by rw [hc]; decide), ih _ (fun d hd => h d (List.mem_cons_of_mem _ hd))]
      simp
    · intro cs' h1 _
      subst h1
      revert hc
      decide

/-- A text of newline-terminated lines splits into exactly these lines. -/
theorem splitlines_lines (ls : List Text) (h : ∀ l ∈ ls, ∀ c ∈ l, is_line_end c = false) :
    splitlines (ls.flatMap (fun l => l ++ ['\n'])) = ls := by
  induction ls with
  | nil => rfl
  | cons l ls ih =>
    have hl := splitlines_from_line [] (ls.flatMap (fun l => l ++ ['\n'])) l
      (h l (by simp))
    simp only [List.flatMap_cons, List.append_assoc, List.singleton_append]
    rw [splitlines, hl, ← splitlines, ih (fun x hx => h x (List.mem_cons_of_mem _ hx))]
    rfl

/-! ## `int`

`int()` first turns every decimal digit of Unicode into the ASCII digit and every other white space
into a blank, and leaves the ASCII characters as they are. Around the numeral it then skips what C's
`isspace` knows, which the separators U+001C to U+001F are not, although `str.strip()` removes
them. -/

/-- `sys.int_info.default_max_str_digits`. -/
def int_max_str_digits : ℕ := 4300

/-- The zeros of the decimal digits of Unicode; the other nine follow each of them. -/
def decimal_zeros : List ℕ := [
  0x30, 0x660, 0x6F0, 0x7C0, 0x966, 0x9E6, 0xA66, 0xAE6, 0xB66, 0xBE6, 0xC66, 0xCE6, 0xD66, 0xDE6,
  0xE50, 0xED0, 0xF20, 0x1040, 0x1090, 0x17E0, 0x1810, 0x1946, 0x19D0, 0x1A80, 0x1A90, 0x1B50,
  0x1BB0, 0x1C40, 0x1C50, 0xA620, 0xA8D0, 0xA900, 0xA9D0, 0xA9F0, 0xAA50, 0xABF0, 0xFF10, 0x104A0,
  0x10D30, 0x11066, 0x110F0, 0x11136, 0x111D0, 0x112F0, 0x11450, 0x114D0, 0x11650, 0x116C0,
  0x11730, 0x118E0, 0x11950, 0x11C50, 0x11D50, 0x11DA0, 0x16A60, 0x16AC0, 0x16B50, 0x1D7CE,
  0x1D7D8, 0x1D7E2, 0x1D7EC, 0x1D7F6, 0x1E140, 0x1E2F0, 0x1E950, 0x1FBF0]

/-- The value of a decimal digit, and `\d` when there is one. -/
def decimal (c : Char) : Option ℕ :=
  (decimal_zeros.find? (fun z => z ≤ c.toNat ∧ c.toNat ≤ z + 9)).map (c.toNat - ·)

/-- A character as `int()` reads it; no numeral has a `?`. -/
def numeral_char (c : Char) : Char :=
  if c.toNat < 127 then c
  else if is_space c then ' '
  else
    match decimal c with
    | some d => Nat.digitChar d
    | none => '?'

/-- C's `isspace`. -/
def is_c_space (c : Char) : Bool := (9 ≤ c.toNat && c.toNat ≤ 13) || c = ' '

/-- A text as `int()` reads it, without the white space around it. -/
def numeral (s : Text) : Text :=
  ((s.map numeral_char).dropWhile is_c_space).rdropWhile is_c_space

/-- The digits of a numeral: groups of them with single underscores in between, 4300 at most. The
limit is on the digits and not on the characters. -/
def decimal_digits (s : Text) : Option ℕ :=
  let groups := split '_' s
  if groups.all (fun group => group ≠ [] ∧ group.all is_digit) ∧
      groups.flatten.length ≤ int_max_str_digits then
    some (of_dec groups.flatten)
  else none

/-- `int(value)`, `none` for its `ValueError`. One sign may stand before the digits, with no space
between. -/
def int_decimal (value : Text) : Option ℤ :=
  match numeral value with
  | '-' :: digits => (decimal_digits digits).map (fun n => -(n : ℤ))
  | '+' :: digits => (decimal_digits digits).map (fun n => (n : ℤ))
  | digits => (decimal_digits digits).map (fun n => (n : ℤ))

theorem numeral_length_le (s : Text) : (numeral s).length ≤ s.length := by
  have hfront := (List.dropWhile_sublist is_c_space (l := s.map numeral_char)).length_le
  have hback := (List.dropWhile_sublist is_c_space
    (l := ((s.map numeral_char).dropWhile is_c_space).reverse)).length_le
  rw [List.length_reverse] at hback
  rw [List.length_map] at hfront
  rw [numeral, List.rdropWhile, List.length_reverse]
  exact hback.trans hfront

/-- A text of printable ASCII is its own numeral. -/
theorem numeral_of_ascii {s : Text} (h : ∀ c ∈ s, 33 ≤ c.toNat ∧ c.toNat < 127) : numeral s = s := by
  have hmap : s.map numeral_char = s := by
    have hchar : ∀ c ∈ s, numeral_char c = c := fun c hc => if_pos (h c hc).2
    rw [List.map_congr_left hchar, List.map_id']
  have hspace : ∀ c ∈ s, is_c_space c = false := by
    intro c hc
    have hlow := (h c hc).1
    have hblank : c ≠ ' ' := by
      rintro rfl
      exact absurd hlow (by decide)
    simp only [is_c_space, Bool.or_eq_false_iff, Bool.and_eq_false_iff, decide_eq_false_iff_not]
    exact ⟨.inr (by omega), hblank⟩
  have hdrop : s.dropWhile is_c_space = s := by
    cases s with
    | nil => rfl
    | cons c cs => simp [hspace c (by simp)]
  rw [numeral, hmap, hdrop, List.rdropWhile_eq_self_iff]
  intro hne
  rw [hspace _ (List.getLast_mem hne)]
  decide

theorem strip_of_no_space {s : Text} (h : ∀ c ∈ s, is_space c = false) : strip s = s := by
  have hd : s.dropWhile is_space = s := by
    cases s with
    | nil => rfl
    | cons c cs => simp [h c (by simp)]
  rw [strip, hd, List.rdropWhile_eq_self_iff]
  intro hne
  rw [h _ (List.getLast_mem hne)]
  decide

end F2bguard.PyText
