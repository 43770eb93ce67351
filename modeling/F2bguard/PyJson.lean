/-
Python's `json`: `dumps` with compact separators, and `loads` with its hooks.

Every message of the guard is a JSON text: the sender stores payloads and posts
bodies, the receiver asks the helper for a replacement in one line and gets one
line back. What the development needs is `scan_once_dumps`: reading a printed
value gives the value, provided the strings on the wire need no escape and the
objects repeat no key. That is the case for every message the guard builds, and
it holds for each of the three decoders the sources set up, which differ only in
their hooks.

Three details of the library are kept because the guard can run into them. `int()`
refuses a literal of more than 4300 digits with a plain `ValueError`, and nesting
beyond the interpreter's recursion limit raises `RecursionError`; neither is a
`JSONDecodeError`. And a `\u` escape may name a lone surrogate, which the decoder
passes on; two keys that differ in one are two keys. Conversions between a double and its
text are the interpreter's and enter as the fields of `FloatText`; no statement depends on
what they compute.
-/
import F2bguard.PyText
import Mathlib.Data.Rat.Defs
import Mathlib.Data.List.Sort

set_option autoImplicit false

namespace F2bguard.PyJson

open F2bguard.PyText

/-- A Python `float`: the finite doubles are rational numbers. -/
inductive PyFloat
  | finite (q : ℚ)
  | inf (negative : Bool)
  | nan
  deriving DecidableEq

/-- A value `json` reads or prints. An object is its list of items in order, with whatever keys
the text repeated: what becomes of repetitions is up to the hook. -/
inductive Json
  | null
  | bool (b : Bool)
  | int (n : ℤ)
  | float (x : PyFloat)
  | str (s : Text)
  | arr (xs : List Json)
  | obj (items : List (Text × Json))

/-- `float.__repr__` of a finite double, and `float(literal)`. -/
structure FloatText where
  repr : ℚ → Text
  parse : Text → PyFloat

/-- `value[key]` of a dict, `none` when the key is missing. -/
def get_item (items : List (Text × Json)) (key : Text) : Option Json :=
  (items.find? (fun item => item.1 = key)).map Prod.snd

/-! ## Printing

`ensure_ascii` is on everywhere, so a printed text is ASCII and its length in bytes is its length.
-/

/-- Four hexadecimal digits, as `ensure_ascii` writes them. -/
def hex4 (n : ℕ) : Text :=
  [Nat.digitChar (n / 4096 % 16), Nat.digitChar (n / 256 % 16), Nat.digitChar (n / 16 % 16),
    Nat.digitChar (n % 16)]

/-- One code point of a printed string. -/
def escape_char (n : ℕ) : Text :=
  if n = '"'.toNat then ['\\', '"']
  else if n = '\\'.toNat then ['\\', '\\']
  else if n = '\n'.toNat then ['\\', 'n']
  else if n = '\r'.toNat then ['\\', 'r']
  else if n = '\t'.toNat then ['\\', 't']
  else if n = 8 then ['\\', 'b']
  else if n = 12 then ['\\', 'f']
  else if 32 ≤ n ∧ n ≤ 126 then [Char.ofNat n]
  else if n < 65536 then '\\' :: 'u' :: hex4 n
  -- a character outside the basic plane is written as a surrogate pair
  else '\\' :: 'u' :: hex4 (0xd800 + (n - 65536) / 1024)
    ++ '\\' :: 'u' :: hex4 (0xdc00 + (n - 65536) % 1024)

/-- A printed string, between its quotes. -/
def dumps_str (s : Text) : Text := '"' :: (code_points s).flatMap escape_char ++ ['"']

/-- A printed integer. Integers of more than 4300 digits cannot be printed, and none is. -/
def dumps_int (n : ℤ) : Text :=
  if n < 0 then '-' :: to_dec n.natAbs else to_dec n.natAbs

/-- What `json.dumps` makes of a float, where `allow_nan` is left on. -/
def dumps_float (ft : FloatText) : PyFloat → Text
  | .finite q => ft.repr q
  | .inf false => "Infinity".toList
  | .inf true => "-Infinity".toList
  | .nan => "NaN".toList

mutual

/-- `json.dumps(value, separators=(",", ":"))`. -/
def dumps (ft : FloatText) : Json → Text
  | .null => "null".toList
  | .bool true => "true".toList
  | .bool false => "false".toList
  | .int n => dumps_int n
  | .float x => dumps_float ft x
  | .str s => dumps_str s
  | .arr xs => '[' :: join ',' (dumps_list ft xs) ++ [']']
  | .obj items => '\x7b' :: join ',' (dumps_items ft items) ++ ['\x7d']

def dumps_list (ft : FloatText) : List Json → List Text
  | [] => []
  | x :: xs => dumps ft x :: dumps_list ft xs

def dumps_items (ft : FloatText) : List (Text × Json) → List Text
  | [] => []
  | (k, v) :: items => (dumps_str k ++ ':' :: dumps ft v) :: dumps_items ft items

end

/-- The order `sort_keys=True` sorts items by. -/
def key_le (a b : Text × Json) : Prop := ¬ b.1 < a.1

instance : DecidableRel key_le := fun a b => inferInstanceAs (Decidable (¬ b.1 < a.1))

mutual

/-- The value `json.dumps(value, sort_keys=True)` prints: the items of every object
in the order of their keys. -/
def sort_keys : Json → Json
  | .arr xs => .arr (sort_keys_list xs)
  | .obj items => .obj ((sort_keys_items items).insertionSort key_le)
  | .null => .null
  | .bool b => .bool b
  | .int n => .int n
  | .float x => .float x
  | .str s => .str s

def sort_keys_list : List Json → List Json
  | [] => []
  | x :: xs => sort_keys x :: sort_keys_list xs

def sort_keys_items : List (Text × Json) → List (Text × Json)
  | [] => []
  | (k, v) :: items => (k, sort_keys v) :: sort_keys_items items

end

/-! ## Reading

The scanner of the library, function by function. Every function returns what it read and the text
that is left; where the source counts positions, the text left is what stands at the position. The
exceptions are values of the decoder's own type, since the three callers turn them into different
ones. -/

/-- What a caller of `json.loads` sets up, and the exceptions it can raise. -/
structure Decoder (ε : Type) where
  object_pairs_hook : List (Text × Json) → Except ε Json
  parse_constant : Text → Except ε Json
  parse_float : Text → PyFloat
  /-- The nesting depth at which the interpreter raises `RecursionError`. -/
  max_depth : ℕ
  /-- `json.JSONDecodeError` -/
  decode_error : ε
  /-- The `ValueError` of `int()` beyond `int_max_str_digits`. -/
  digits_error : ε
  depth_error : ε

/-- The limit leaves room for the requests. -/
theorem three_le_max_depth : 3 ≤ 900 := by decide

def is_ws (c : Char) : Bool := c = ' ' || c = '\t' || c = '\n' || c = '\r'

def skip_ws (s : Text) : Text := s.dropWhile is_ws

/-- The integer part of `NUMBER_RE`: an optional sign, then `0` or digits not led by `0`. -/
def scan_integer (s : Text) : Option (Bool × Text × Text) :=
  let (negative, digits) := match s with
    | '-' :: cs => (true, cs)
    | _ => (false, s)
  match digits with
  | '0' :: cs => some (negative, ['0'], cs)
  | c :: cs => if is_digit c then some (negative, c :: cs.takeWhile is_digit, cs.dropWhile is_digit)
      else none
  | [] => none

/-- The fraction part, empty when there is none. -/
def scan_fraction (s : Text) : Text × Text :=
  match s with
  | '.' :: cs =>
      if cs.takeWhile is_digit = [] then ([], s)
      else ('.' :: cs.takeWhile is_digit, cs.dropWhile is_digit)
  | _ => ([], s)

/-- The exponent part, empty when there is none. -/
def scan_exponent (s : Text) : Text × Text :=
  match s with
  | e :: cs =>
      if e = 'e' ∨ e = 'E' then
        let (sign, digits) := match cs with
          | '+' :: ds => (['+'], ds)
          | '-' :: ds => (['-'], ds)
          | _ => ([], cs)
        if digits.takeWhile is_digit = [] then ([], s)
        else (e :: sign ++ digits.takeWhile is_digit, digits.dropWhile is_digit)
      else ([], s)
  | [] => ([], [])

/-- `_match_number`: an integer unless a fraction or an exponent follows. A mark that no digit
follows is not part of the number and is left for what comes next. -/
def scan_number {ε : Type} (d : Decoder ε) (s : Text) : Except ε (Json × Text) :=
  match scan_integer s with
  | none => .error d.decode_error
  | some (negative, digits, s) =>
      let (frac, s') := scan_fraction s
      let (exp, s'') := scan_exponent s'
      if frac = [] ∧ exp = [] then
        if int_max_str_digits < digits.length then .error d.digits_error
        else if negative then .ok (.int (-(of_dec digits : ℤ)), s)
        else .ok (.int (of_dec digits : ℤ), s)
      else
        let sign := if negative then ['-'] else []
        .ok (.float (d.parse_float (sign ++ digits ++ frac ++ exp)), s'')

/-- The four digits after `\u`. -/
def scan_hex4 (s : Text) : Option (ℕ × Text) :=
  if (s.take 4).length = 4 then (of_hex (s.take 4)).map (fun n => (n, s.drop 4)) else none

/-- The code point of a `\u` escape, joined with a following low surrogate. A surrogate that stays
alone is passed on. -/
def scan_unicode (s : Text) : Option (Text × Text) :=
  match scan_hex4 s with
  | none => none
  | some (n, rest) =>
      if 0xd800 ≤ n ∧ n < 0xdc00 then
        match rest with
        | '\\' :: 'u' :: more =>
            match scan_hex4 more with
            | some (m, rest') =>
                if 0xdc00 ≤ m ∧ m < 0xe000 then
                  some (of_code_point (65536 + (n - 0xd800) * 1024 + (m - 0xdc00)), rest')
                else some (of_code_point n, rest)
            | none => some (of_code_point n, rest)
        | _ => some (of_code_point n, rest)
      else some (of_code_point n, rest)

/-- The character a one-letter escape stands for. -/
def unescape (c : Char) : Option Char :=
  if c = '"' then some '"'
  else if c = '\\' then some '\\'
  else if c = '/' then some '/'
  else if c = 'b' then some (Char.ofNat 8)
  else if c = 'f' then some (Char.ofNat 12)
  else if c = 'n' then some '\n'
  else if c = 'r' then some '\r'
  else if c = 't' then some '\t'
  else none

/-- The text an escape stands for, after the backslash. -/
def scan_escape : Text → Option (Text × Text)
  | [] => none
  | 'u' :: more => scan_unicode more
  | e :: more => (unescape e).map (fun ch => ([ch], more))

/-- `py_scanstring` after the opening quote, with the characters read so far in
reverse; control characters are refused. -/
def scan_string : ℕ → Text → Text → Option (Text × Text)
  | 0, _, _ => none
  | _ + 1, _, [] => none
  | fuel + 1, read, c :: cs =>
      if c = '"' then some (read.reverse, cs)
      else if c = '\\' then
        (scan_escape cs).bind (fun r => scan_string fuel (r.1.reverse ++ read) r.2)
      else if c.toNat < 32 then none
      else scan_string fuel (c :: read) cs

/-- The text after a literal, when the input starts with it. -/
def after (literal s : Text) : Option Text :=
  if s.take literal.length = literal then some (s.drop literal.length) else none

/-- A value other than a string, an array or an object. -/
def scan_scalar {ε : Type} (d : Decoder ε) (s : Text) : Except ε (Json × Text) :=
  match after "null".toList s, after "true".toList s, after "false".toList s,
    after "NaN".toList s, after "Infinity".toList s, after "-Infinity".toList s with
  | some rest, _, _, _, _, _ => .ok (.null, rest)
  | _, some rest, _, _, _, _ => .ok (.bool true, rest)
  | _, _, some rest, _, _, _ => .ok (.bool false, rest)
  | _, _, _, some rest, _, _ => (d.parse_constant "NaN".toList).map (fun v => (v, rest))
  | _, _, _, _, some rest, _ => (d.parse_constant "Infinity".toList).map (fun v => (v, rest))
  | _, _, _, _, _, some rest => (d.parse_constant "-Infinity".toList).map (fun v => (v, rest))
  | _, _, _, _, _, _ => scan_number d s

/-- A string value, after its opening quote. Each turn of `scan_string` takes at least one
character, so the fuel suffices. -/
def scan_str {ε : Type} (d : Decoder ε) (s : Text) : Except ε (Text × Text) :=
  match scan_string (s.length + 1) [] s with
  | some r => .ok r
  | none => .error d.decode_error

/-- The key of an item and the text from its value on. White space may stand on both sides of the
colon. -/
def scan_key {ε : Type} (d : Decoder ε) (s : Text) : Except ε (Text × Text) :=
  if s.head? = some '"' then
    (scan_str d s.tail).bind (fun r =>
      if (skip_ws r.2).head? = some ':' then .ok (r.1, skip_ws (skip_ws r.2).tail)
      else .error d.decode_error)
  else .error d.decode_error

/-- One level deeper, unless the interpreter's limit is reached. -/
def descend {ε α : Type} (d : Decoder ε) (depth : ℕ) (enter : ℕ → Except ε α) : Except ε α :=
  match depth with
  | 0 => .error d.depth_error
  | depth + 1 => enter depth

mutual

/-- `scan_once`. The first argument bounds the recursion; `loads` starts it at twice
the length of the text, which no input uses up. The second is the nesting left. -/
def scan_once {ε : Type} (d : Decoder ε) : ℕ → ℕ → Text → Except ε (Json × Text)
  | 0, _, _ => .error d.decode_error
  | _ + 1, _, [] => .error d.decode_error
  | fuel + 1, depth, c :: cs =>
      if c = '"' then (scan_str d cs).map (fun r => (.str r.1, r.2))
      else if c = '[' then
        descend d depth (fun depth =>
          if (skip_ws cs).head? = some ']' then .ok (.arr [], (skip_ws cs).tail)
          else (scan_array d fuel depth (skip_ws cs)).map (fun r => (.arr r.1, r.2)))
      else if c = '\x7b' then
        descend d depth (fun depth =>
          if (skip_ws cs).head? = some '\x7d' then
            (d.object_pairs_hook []).map (fun v => (v, (skip_ws cs).tail))
          else
            (scan_object d fuel depth (skip_ws cs)).bind (fun r =>
              (d.object_pairs_hook r.1).map (fun v => (v, r.2))))
      else scan_scalar d (c :: cs)

/-- The elements of a non-empty array, up to its closing bracket. A comma has to be followed by a
further element. -/
def scan_array {ε : Type} (d : Decoder ε) : ℕ → ℕ → Text → Except ε (List Json × Text)
  | 0, _, _ => .error d.decode_error
  | fuel + 1, depth, s =>
      (scan_once d fuel depth s).bind (fun r =>
        if (skip_ws r.2).head? = some ']' then .ok ([r.1], (skip_ws r.2).tail)
        else if (skip_ws r.2).head? = some ',' then
          (scan_array d fuel depth (skip_ws (skip_ws r.2).tail)).map (fun q => (r.1 :: q.1, q.2))
        else .error d.decode_error)

/-- The items of a non-empty object, up to its closing brace. The hook is called for the list of
items once the brace is read, so an inner object is handed to it before the outer one. -/
def scan_object {ε : Type} (d : Decoder ε) : ℕ → ℕ → Text → Except ε (List (Text × Json) × Text)
  | 0, _, _ => .error d.decode_error
  | fuel + 1, depth, s =>
      (scan_key d s).bind (fun key =>
        (scan_once d fuel depth key.2).bind (fun r =>
          if (skip_ws r.2).head? = some '\x7d' then .ok ([(key.1, r.1)], (skip_ws r.2).tail)
          else if (skip_ws r.2).head? = some ',' then
            (scan_object d fuel depth (skip_ws (skip_ws r.2).tail)).map
              (fun q => ((key.1, r.1) :: q.1, q.2))
          else .error d.decode_error))

end

/-- `json.loads(text)` under a decoder. Something after the value that is no white space is a
`JSONDecodeError`. -/
def loads {ε : Type} (d : Decoder ε) (s : Text) : Except ε Json :=
  match scan_once d (2 * s.length + 2) d.max_depth (skip_ws s) with
  | .error e => .error e
  | .ok (v, rest) => if skip_ws rest = [] then .ok v else .error d.decode_error

/-! ## What is on the wire

The messages of the guard hold no float, no negative integer and no string that
needs an escape, and no object of theirs repeats a key. -/

/-- A character that `dumps` prints as itself. -/
def PlainChar (c : Char) : Prop := 32 ≤ c.toNat ∧ c.toNat ≤ 126 ∧ c ≠ '"' ∧ c ≠ '\\'

def PlainText (s : Text) : Prop := ∀ c ∈ s, PlainChar c

instance : DecidablePred PlainChar :=
  fun c => inferInstanceAs (Decidable (32 ≤ c.toNat ∧ c.toNat ≤ 126 ∧ c ≠ '"' ∧ c ≠ '\\'))

instance (s : Text) : Decidable (PlainText s) := inferInstanceAs (Decidable (∀ c ∈ s, PlainChar c))

mutual

/-- A value of the guard's messages. -/
def Wire : Json → Prop
  | .null => True
  | .bool _ => True
  | .int n => 0 ≤ n ∧ (to_dec n.natAbs).length ≤ int_max_str_digits
  | .float _ => False
  | .str s => PlainText s
  | .arr xs => WireList xs
  | .obj items => (items.map Prod.fst).Nodup ∧ WireItems items

def WireList : List Json → Prop
  | [] => True
  | x :: xs => Wire x ∧ WireList xs

def WireItems : List (Text × Json) → Prop
  | [] => True
  | (k, v) :: items => PlainText k ∧ Wire v ∧ WireItems items

end

mutual

/-- The nesting depth of a value. -/
def nesting : Json → ℕ
  | .arr xs => nesting_list xs + 1
  | .obj items => nesting_items items + 1
  | .null => 0
  | .bool _ => 0
  | .int _ => 0
  | .float _ => 0
  | .str _ => 0

def nesting_list : List Json → ℕ
  | [] => 0
  | x :: xs => max (nesting x) (nesting_list xs)

def nesting_items : List (Text × Json) → ℕ
  | [] => 0
  | (_, v) :: items => max (nesting v) (nesting_items items)

end

/-- A decoder whose hook keeps an object that repeats no key. -/
def Decoder.KeepsObjects {ε : Type} (d : Decoder ε) : Prop :=
  ∀ items, (items.map Prod.fst).Nodup → d.object_pairs_hook items = .ok (.obj items)

/-- What may follow a value: the end, the end of the line, or the punctuation of an enclosing
value. -/
def Follows (rest : Text) : Prop :=
  ∀ c, rest.head? = some c → c = ',' ∨ c = ']' ∨ c = '\x7d' ∨ c = '\n'

/-! ## Strings

A plain string is printed as it is, and read up to the quote that ends it. -/

theorem escape_char_plain {c : Char} (hc : PlainChar c) : escape_char c.toNat = [c] := by
  obtain ⟨hlo, hhi, hquote, hback⟩ := hc
  have hne : ∀ {d : Char}, c ≠ d → c.toNat ≠ d.toNat := fun h heq => h (Char.ext (UInt32.toNat.inj heq))
  have hn : c ≠ '\n' := by rintro rfl; exact absurd hlo (by decide)
  have hr : c ≠ '\r' := by rintro rfl; exact absurd hlo (by decide)
  have ht : c ≠ '\t' := by rintro rfl; exact absurd hlo (by decide)
  rw [escape_char, if_neg (hne hquote), if_neg (hne hback), if_neg (hne hn), if_neg (hne hr),
    if_neg (hne ht), if_neg (by omega), if_neg (by omega), if_pos ⟨hlo, hhi⟩, Char.ofNat_toNat]

theorem dumps_str_plain {s : Text} (hs : PlainText s) : dumps_str s = '"' :: s ++ ['"'] := by
  have hpoints : code_points s = s.map Char.toNat := by
    refine code_points_of_not_mem (fun hmem => ?_)
    exact absurd (hs escape_mark hmem).2.1 (by decide)
  have h : (s.map Char.toNat).flatMap escape_char = s := by
    rw [List.flatMap_map]
    induction s with
    | nil => rfl
    | cons c cs ih =>
      have htail : PlainText cs := fun d hd => hs d (List.mem_cons_of_mem _ hd)
      rw [List.flatMap_cons, escape_char_plain (hs c (by simp)), ih htail]
      · rfl
      · exact code_points_of_not_mem (fun hmem => absurd (htail escape_mark hmem).2.1 (by decide))
  rw [dumps_str, hpoints, h]

theorem dumps_str_length {s : Text} (hs : PlainText s) : (dumps_str s).length = s.length + 2 := by
  rw [dumps_str_plain hs]
  simp

theorem scan_string_plain {s rest : Text} (hs : PlainText s) :
    ∀ {fuel : ℕ} {read : Text}, s.length < fuel →
      scan_string fuel read (s ++ '"' :: rest) = some (read.reverse ++ s, rest) := by
  induction s with
  | nil =>
    intro fuel read hf
    obtain ⟨fuel, rfl⟩ : ∃ k, fuel = k + 1 := ⟨fuel - 1, by omega⟩
    simp [scan_string]
  | cons c cs ih =>
    intro fuel read hf
    obtain ⟨hlo, -, hquote, hback⟩ := hs c (by simp)
    obtain ⟨fuel, rfl⟩ : ∃ k, fuel = k + 1 := ⟨fuel - 1, by omega⟩
    rw [List.cons_append, scan_string, if_neg hquote, if_neg hback, if_neg (by omega),
      ih (fun d hd => hs d (List.mem_cons_of_mem _ hd)) (by simpa using hf)]
    simp

/-! ## Numbers

A printed integer is read up to the punctuation that follows it, which is neither a digit nor the
mark of a fraction or an exponent. -/

theorem takeWhile_append_of_follows {s rest : Text} (hs : ∀ c ∈ s, is_digit c = true)
    (hrest : Follows rest) : (s ++ rest).takeWhile is_digit = s
      ∧ (s ++ rest).dropWhile is_digit = rest := by
  have hstop : rest.takeWhile is_digit = [] ∧ rest.dropWhile is_digit = rest := by
    cases rest with
    | nil => exact ⟨rfl, rfl⟩
    | cons c cs =>
      have hc : is_digit c = false := by
        rcases hrest c rfl with rfl | rfl | rfl | rfl <;> decide
      simp [hc]
  rw [List.takeWhile_append_of_pos hs, List.dropWhile_append_of_pos hs, hstop.1, hstop.2]
  simp

theorem scan_fraction_follows {rest : Text} (hrest : Follows rest) :
    scan_fraction rest = ([], rest) := by
  cases rest with
  | nil => rfl
  | cons c cs => rcases hrest c rfl with rfl | rfl | rfl | rfl <;> rfl

theorem scan_exponent_follows {rest : Text} (hrest : Follows rest) :
    scan_exponent rest = ([], rest) := by
  cases rest with
  | nil => rfl
  | cons c cs => rcases hrest c rfl with rfl | rfl | rfl | rfl <;> rfl

/-- A printed natural number is its own integer part. -/
theorem scan_integer_to_dec (n : ℕ) {rest : Text} (hrest : Follows rest) :
    scan_integer (to_dec n ++ rest) = some (false, to_dec n, rest) := by
  by_cases hn : n = 0
  · subst hn
    rfl
  · cases hd : to_dec n with
    | nil => exact absurd hd (to_dec_ne_nil n)
    | cons c cs =>
      have hall : ∀ d ∈ c :: cs, is_digit d = true := fun d h => mem_to_dec (by rw [hd]; exact h)
      have hzero : c ≠ '0' := by
        intro h
        apply to_dec_head hn
        rw [hd, h]
        rfl
      have hminus : c ≠ '-' := by
        rintro rfl
        exact absurd (hall '-' (by simp)) (by decide)
      have hc : is_digit c = true := hall c (by simp)
      obtain ⟨htake, hdrop⟩ := takeWhile_append_of_follows
        (fun d h => hall d (List.mem_cons_of_mem _ h)) hrest
      rw [List.cons_append, scan_integer]
      · rw [if_pos hc, htake, hdrop]
      · exact hzero
      · intro cs' h
        exact hminus (List.cons.inj h).1

theorem after_of_head {literal s : Text} {c d : Char} (hl : literal.head? = some c)
    (hs : s.head? = some d) (hne : d ≠ c) : after literal s = none := by
  cases literal with
  | nil => simp at hl
  | cons x xs =>
    cases s with
    | nil => simp at hs
    | cons y ys =>
      obtain rfl : x = c := by simpa using hl
      obtain rfl : y = d := by simpa using hs
      rw [after, if_neg]
      simp [hne]

theorem scan_scalar_to_dec {ε : Type} (d : Decoder ε) {n : ℕ}
    (hn : (to_dec n).length ≤ int_max_str_digits) {rest : Text} (hrest : Follows rest) :
    scan_scalar d (to_dec n ++ rest) = .ok (.int n, rest) := by
  have hhead : ∃ c, (to_dec n ++ rest).head? = some c ∧ is_digit c = true := by
    cases hd : to_dec n with
    | nil => exact absurd hd (to_dec_ne_nil n)
    | cons c cs => exact ⟨c, rfl, mem_to_dec (n := n) (by rw [hd]; simp)⟩
  obtain ⟨c, hc, hdig⟩ := hhead
  have hnot : ∀ {literal : Text} {x : Char}, literal.head? = some x → is_digit x = false →
      after literal (to_dec n ++ rest) = none := by
    intro literal x hl hx
    refine after_of_head hl hc ?_
    rintro rfl
    rw [hdig] at hx
    exact absurd hx (by decide)
  rw [scan_scalar, hnot (x := 'n') rfl rfl, hnot (x := 't') rfl rfl, hnot (x := 'f') rfl rfl,
    hnot (x := 'N') rfl rfl, hnot (x := 'I') rfl rfl, hnot (x := '-') rfl rfl]
  dsimp only
  rw [scan_number, scan_integer_to_dec n hrest]
  dsimp only
  rw [scan_fraction_follows hrest]
  dsimp only
  rw [scan_exponent_follows hrest]
  dsimp only
  rw [if_pos ⟨rfl, rfl⟩, if_neg (by omega), of_dec_to_dec]
  rfl

theorem after_self (literal rest : Text) : after literal (literal ++ rest) = some rest := by
  rw [after, List.take_left, if_pos rfl, List.drop_left]

theorem scan_scalar_null {ε : Type} (d : Decoder ε) (rest : Text) :
    scan_scalar d ("null".toList ++ rest) = .ok (.null, rest) := by
  rw [scan_scalar, after_self]

theorem scan_scalar_bool {ε : Type} (d : Decoder ε) (ft : FloatText) (b : Bool) (rest : Text) :
    scan_scalar d (dumps ft (.bool b) ++ rest) = .ok (.bool b, rest) := by
  cases b with
  | true =>
    rw [dumps, scan_scalar, after_self, after_of_head (c := 'n') (d := 't') rfl rfl (by decide)]
  | false =>
    rw [dumps, scan_scalar, after_self, after_of_head (c := 'n') (d := 'f') rfl rfl (by decide),
      after_of_head (c := 't') (d := 'f') rfl rfl (by decide)]

/-! ## Reading a printed value

The induction is over the value, and for the elements of an array and the items of an object over
the list. The text that follows the value is arbitrary, as long as a value may end there. -/

/-- A character that starts a value: no white space and no closing bracket. -/
def Opens (c : Char) : Prop := is_ws c = false ∧ c ≠ ']' ∧ c ≠ '\x7d'

theorem opens_of_digit {c : Char} (h : is_digit c = true) : Opens c := by
  refine ⟨?_, ?_, ?_⟩
  · cases hc : is_ws c with
    | false => rfl
    | true =>
      simp only [is_ws, Bool.or_eq_true, decide_eq_true_eq] at hc
      rcases hc with ((rfl | rfl) | rfl) | rfl <;> exact absurd h (by decide)
  · rintro rfl
    exact absurd h (by decide)
  · rintro rfl
    exact absurd h (by decide)

theorem dumps_head (ft : FloatText) {v : Json} (hv : Wire v) :
    ∃ c cs, dumps ft v = c :: cs ∧ Opens c := by
  cases v with
  | null => exact ⟨'n', _, rfl, by decide, by decide, by decide⟩
  | bool b => cases b with
    | true => exact ⟨'t', _, rfl, by decide, by decide, by decide⟩
    | false => exact ⟨'f', _, rfl, by decide, by decide, by decide⟩
  | int n =>
    have hn : ¬ n < 0 := by
      rw [Wire] at hv
      omega
    rw [dumps, dumps_int, if_neg hn]
    cases hd : to_dec n.natAbs with
    | nil => exact absurd hd (to_dec_ne_nil _)
    | cons c cs =>
      exact ⟨c, cs, rfl, opens_of_digit (mem_to_dec (n := n.natAbs) (by rw [hd]; simp))⟩
  | float x => exact absurd hv (by simp [Wire])
  | str s => exact ⟨'"', _, rfl, by decide, by decide, by decide⟩
  | arr xs => exact ⟨'[', _, rfl, by decide, by decide, by decide⟩
  | obj items => exact ⟨'\x7b', _, rfl, by decide, by decide, by decide⟩

theorem skip_ws_of_opens {c : Char} {cs : Text} (h : Opens c) : skip_ws (c :: cs) = c :: cs := by
  rw [skip_ws, List.dropWhile_cons_of_neg]
  rw [h.1]
  decide

theorem follows_bracket (rest : Text) : Follows (']' :: rest) := by
  intro c hc
  exact Or.inr (Or.inl (Option.some.inj hc).symm)

theorem follows_brace (rest : Text) : Follows ('\x7d' :: rest) := by
  intro c hc
  exact Or.inr (Or.inr (Or.inl (Option.some.inj hc).symm))

theorem follows_comma (rest : Text) : Follows (',' :: rest) := by
  intro c hc
  exact Or.inl (Option.some.inj hc).symm

/-- White space is skipped up to a character that is none. -/
theorem skip_ws_cons {c : Char} {cs : Text} (h : is_ws c = false) : skip_ws (c :: cs) = c :: cs := by
  rw [skip_ws, List.dropWhile_cons_of_neg]
  rw [h]
  decide

section RoundTrip

variable {ε : Type} (d : Decoder ε) (ft : FloatText)

theorem scan_str_plain {s : Text} (hs : PlainText s) (rest : Text) :
    scan_str d (s ++ '"' :: rest) = .ok (s, rest) := by
  rw [scan_str, scan_string_plain hs (by simp only [List.length_append]; omega)]
  rfl

/-- The printed elements start with the first character of the first element. -/
theorem dumps_list_head {x : Json} (hx : Wire x) (xs : List Json) (rest : Text) :
    ∃ c cs, join ',' (dumps_list ft (x :: xs)) ++ rest = c :: cs ∧ Opens c := by
  obtain ⟨c, cs, hc, hopens⟩ := dumps_head ft hx
  rw [dumps_list]
  cases dumps_list ft xs with
  | nil => exact ⟨c, _, by rw [join_singleton, hc, List.cons_append], hopens⟩
  | cons q qs => exact ⟨c, _, by rw [join_cons_cons, hc, List.cons_append, List.cons_append], hopens⟩

theorem dumps_items_head (k : Text) (v : Json) (items : List (Text × Json)) (rest : Text) :
    ∃ cs, join ',' (dumps_items ft ((k, v) :: items)) ++ rest = '"' :: cs := by
  rw [dumps_items, dumps_str]
  cases dumps_items ft items with
  | nil => exact ⟨_, by rw [join_singleton]; rfl⟩
  | cons q qs => exact ⟨_, by rw [join_cons_cons]; rfl⟩

/-- A printed item up to its value. -/
theorem scan_key_dumps {k : Text} (hk : PlainText k) {v : Json} (hv : Wire v) (rest : Text) :
    scan_key d (dumps_str k ++ ':' :: (dumps ft v ++ rest)) = .ok (k, dumps ft v ++ rest) := by
  obtain ⟨c, cs, hc, hopens⟩ := dumps_head ft hv
  rw [dumps_str_plain hk, List.append_assoc, List.cons_append, List.singleton_append, scan_key,
    List.head?_cons, if_pos rfl, List.tail_cons, scan_str_plain d hk]
  dsimp only [Except.bind]
  rw [skip_ws_cons (by decide), List.head?_cons, if_pos rfl, List.tail_cons, hc, List.cons_append,
    skip_ws_of_opens hopens]

mutual

/-- Reading a printed value gives the value and leaves what followed it. The fuel is
measured against the text: each bracket and each separator is a character more. -/
theorem scan_once_dumps (hd : d.KeepsObjects) (v : Json) (hv : Wire v) (fuel depth : ℕ)
    (rest : Text) (hrest : Follows rest) (hdepth : nesting v ≤ depth)
    (hfuel : 2 * (dumps ft v ++ rest).length ≤ fuel) :
    scan_once d fuel depth (dumps ft v ++ rest) = .ok (v, rest) := by
  -- the text is not empty, so there is fuel for one call
  obtain ⟨c, cs, hhead, hopens⟩ := dumps_head ft hv
  obtain ⟨fuel, rfl⟩ : ∃ k, fuel = k + 1 := by
    rw [hhead] at hfuel
    simp only [List.length_append, List.length_cons] at hfuel
    exact ⟨fuel - 1, by omega⟩
  cases v with
  | null =>
    rw [dumps]
    exact scan_scalar_null d rest
  | bool b =>
    rw [← scan_scalar_bool d ft b rest]
    cases b <;> rfl
  | int n =>
    obtain ⟨hn, hlen⟩ := hv
    have hnn : ¬ n < 0 := by omega
    have habs : (n.natAbs : ℤ) = n := by omega
    rw [dumps, dumps_int, if_neg hnn] at hhead ⊢
    have hscan := scan_scalar_to_dec d hlen hrest
    rw [hhead] at hscan ⊢
    -- a numeral starts with a digit, so it is read as a scalar
    have hc : is_digit c = true := mem_to_dec (n := n.natAbs) (by rw [hhead]; simp)
    have hquote : c ≠ '"' := by rintro rfl; exact absurd hc (by decide)
    have hbracket : c ≠ '[' := by rintro rfl; exact absurd hc (by decide)
    have hbrace : c ≠ '\x7b' := by rintro rfl; exact absurd hc (by decide)
    rw [List.cons_append, scan_once, if_neg hquote, if_neg hbracket, if_neg hbrace,
      ← List.cons_append, hscan, habs]
  | float x => exact absurd hv (by simp [Wire])
  | str s =>
    rw [dumps, dumps_str_plain hv, List.append_assoc, List.cons_append, List.singleton_append,
      scan_once, if_pos rfl, scan_str_plain d hv]
    rfl
  | arr xs =>
    obtain ⟨depth, rfl⟩ : ∃ k, depth = k + 1 := by
      rw [nesting] at hdepth
      exact ⟨depth - 1, by omega⟩
    rw [dumps, List.append_assoc, List.cons_append, List.singleton_append] at hfuel ⊢
    rw [scan_once, if_neg (by decide), if_pos rfl, descend]
    cases xs with
    | nil => rfl
    | cons x xs =>
      have harr := scan_array_dumps hd (x :: xs) (by simp) hv fuel depth rest
        (by rw [nesting] at hdepth; omega)
        (by simp only [List.length_cons] at hfuel; omega)
      obtain ⟨y, ys, hy, hopen⟩ := dumps_list_head ft hv.1 xs (']' :: rest)
      rw [hy] at harr ⊢
      have hclose : (y :: ys).head? ≠ some ']' := fun h => hopen.2.1 (Option.some.inj h)
      rw [skip_ws_of_opens hopen, if_neg hclose, harr]
      rfl
  | obj items =>
    obtain ⟨depth, rfl⟩ : ∃ k, depth = k + 1 := by
      rw [nesting] at hdepth
      exact ⟨depth - 1, by omega⟩
    obtain ⟨hnodup, hitems⟩ := hv
    rw [dumps, List.append_assoc, List.cons_append, List.singleton_append] at hfuel ⊢
    rw [scan_once, if_neg (by decide), if_neg (by decide), if_pos rfl, descend]
    cases items with
    | nil =>
      have hskip : skip_ws (join ',' (dumps_items ft []) ++ '\x7d' :: rest) = '\x7d' :: rest := rfl
      rw [hskip, List.head?_cons, if_pos rfl, hd [] (by simp)]
      rfl
    -- the hook keeps an object whose keys differ
    | cons kv items =>
      obtain ⟨k, v⟩ := kv
      have hobj := scan_object_dumps hd ((k, v) :: items) (by simp) hitems fuel depth rest
        (by rw [nesting] at hdepth; omega)
        (by simp only [List.length_cons] at hfuel; omega)
      obtain ⟨zs, hzs⟩ := dumps_items_head ft k v items ('\x7d' :: rest)
      rw [hzs] at hobj ⊢
      rw [skip_ws_cons (by decide), if_neg (by simp), hobj]
      dsimp only [Except.bind]
      rw [hd _ hnodup]
      rfl

theorem scan_array_dumps (hd : d.KeepsObjects) (xs : List Json) (hne : xs ≠ [])
    (hxs : WireList xs) (fuel depth : ℕ) (rest : Text) (hdepth : nesting_list xs ≤ depth)
    (hfuel : 2 * (join ',' (dumps_list ft xs) ++ ']' :: rest).length + 1 ≤ fuel) :
    scan_array d fuel depth (join ',' (dumps_list ft xs) ++ ']' :: rest) = .ok (xs, rest) := by
  obtain ⟨fuel, rfl⟩ : ∃ k, fuel = k + 1 := ⟨fuel - 1, by omega⟩
  cases xs with
  | nil => exact absurd rfl hne
  | cons x xs =>
    obtain ⟨hx, hxs'⟩ := hxs
    rw [nesting_list] at hdepth
    rw [dumps_list] at hfuel ⊢
    -- the value is followed by the bracket or by a comma
    cases xs with
    | nil =>
      rw [dumps_list, join_singleton] at hfuel ⊢
      have hval := scan_once_dumps hd x hx fuel depth (']' :: rest) (follows_bracket rest)
        (by omega) (by omega)
      rw [scan_array, hval]
      dsimp only [Except.bind]
      rw [skip_ws_cons (by decide), List.head?_cons, if_pos rfl]
      rfl
    | cons y ys =>
      obtain ⟨q, qs, hq⟩ : ∃ q qs, dumps_list ft (y :: ys) = q :: qs := ⟨_, _, by rw [dumps_list]⟩
      rw [hq, join_cons_cons, ← hq, List.append_assoc, List.cons_append] at hfuel ⊢
      have hval := scan_once_dumps hd x hx fuel depth
        (',' :: (join ',' (dumps_list ft (y :: ys)) ++ ']' :: rest)) (follows_comma _)
        (by omega) (by omega)
      have hpos : 0 < (dumps ft x).length := by
        obtain ⟨c, cs, hc, -⟩ := dumps_head ft hx
        rw [hc]
        simp
      have hrest := scan_array_dumps hd (y :: ys) (by simp) hxs' fuel depth rest (by omega)
        (by simp only [List.length_append, List.length_cons] at hfuel ⊢; omega)
      obtain ⟨z, zs, hz, hopen⟩ := dumps_list_head ft hxs'.1 ys (']' :: rest)
      rw [scan_array, hval]
      dsimp only [Except.bind]
      rw [skip_ws_cons (by decide), if_neg (by simp), List.head?_cons, if_pos rfl, List.tail_cons]
      rw [hz] at hrest ⊢
      rw [skip_ws_of_opens hopen, hrest]
      rfl

theorem scan_object_dumps (hd : d.KeepsObjects) (items : List (Text × Json)) (hne : items ≠ [])
    (hitems : WireItems items) (fuel depth : ℕ) (rest : Text)
    (hdepth : nesting_items items ≤ depth)
    (hfuel : 2 * (join ',' (dumps_items ft items) ++ '\x7d' :: rest).length + 1 ≤ fuel) :
    scan_object d fuel depth (join ',' (dumps_items ft items) ++ '\x7d' :: rest)
      = .ok (items, rest) := by
  obtain ⟨fuel, rfl⟩ : ∃ k, fuel = k + 1 := ⟨fuel - 1, by omega⟩
  cases items with
  | nil => exact absurd rfl hne
  | cons kv items =>
    obtain ⟨k, v⟩ := kv
    obtain ⟨hk, hv, hitems'⟩ := hitems
    rw [nesting_items] at hdepth
    rw [dumps_items] at hfuel ⊢
    -- the value is followed by the brace or by a comma
    cases items with
    | nil =>
      rw [dumps_items, join_singleton, List.append_assoc, List.cons_append] at hfuel ⊢
      have hval := scan_once_dumps hd v hv fuel depth ('\x7d' :: rest) (follows_brace rest)
        (by omega) (by simp only [List.length_append, List.length_cons] at hfuel ⊢; omega)
      rw [scan_object, scan_key_dumps d ft hk hv]
      dsimp only [Except.bind]
      rw [hval]
      dsimp only
      rw [skip_ws_cons (by decide), List.head?_cons, if_pos rfl]
      rfl
    | cons kv' items' =>
      obtain ⟨k', v'⟩ := kv'
      obtain ⟨q, qs, hq⟩ : ∃ q qs, dumps_items ft ((k', v') :: items') = q :: qs :=
        ⟨_, _, by rw [dumps_items]⟩
      rw [hq, join_cons_cons, ← hq, List.append_assoc, List.append_assoc, List.cons_append,
        List.cons_append] at hfuel ⊢
      have hval := scan_once_dumps hd v hv fuel depth
        (',' :: (join ',' (dumps_items ft ((k', v') :: items')) ++ '\x7d' :: rest))
        (follows_comma _) (by omega)
        (by simp only [List.length_append, List.length_cons] at hfuel ⊢; omega)
      -- the fuel for the rest is what the value has left
      have hrest := scan_object_dumps hd ((k', v') :: items') (by simp) hitems' fuel depth rest
        (by omega) (by simp only [List.length_append, List.length_cons] at hfuel ⊢; omega)
      obtain ⟨zs, hzs⟩ := dumps_items_head ft k' v' items' ('\x7d' :: rest)
      rw [scan_object, scan_key_dumps d ft hk hv]
      dsimp only [Except.bind]
      rw [hval]
      dsimp only
      rw [skip_ws_cons (by decide), if_neg (by simp), List.head?_cons, if_pos rfl, List.tail_cons]
      rw [hzs] at hrest ⊢
      rw [skip_ws_cons (by decide), hrest]
      rfl

end

/-- **A value of the guard's messages survives the wire.** `json.loads(json.dumps(value)) ==
value`, when its nesting is within the limit. -/
theorem loads_dumps (hd : d.KeepsObjects) {v : Json} (hv : Wire v)
    (hdepth : nesting v ≤ d.max_depth) : loads d (dumps ft v) = .ok v := by
  obtain ⟨c, cs, hc, hopens⟩ := dumps_head ft hv
  have hscan := scan_once_dumps d ft hd v hv (2 * (dumps ft v).length + 2) d.max_depth []
    (by intro c hc; simp at hc) hdepth (by simp)
  rw [List.append_nil] at hscan
  have hskip : skip_ws (dumps ft v) = dumps ft v := by
    rw [hc]
    exact skip_ws_of_opens hopens
  rw [loads, hskip, hscan]
  rfl

/-- The same for a value that is sent as a line. -/
theorem loads_dumps_line (hd : d.KeepsObjects) {v : Json} (hv : Wire v)
    (hdepth : nesting v ≤ d.max_depth) : loads d (dumps ft v ++ ['\n']) = .ok v := by
  obtain ⟨c, cs, hc, hopens⟩ := dumps_head ft hv
  have hscan := scan_once_dumps d ft hd v hv (2 * (dumps ft v ++ ['\n']).length + 2) d.max_depth
    ['\n'] (by intro c hc; cases hc; decide) hdepth (by simp)
  have hskip : skip_ws (dumps ft v ++ ['\n']) = dumps ft v ++ ['\n'] := by
    rw [hc, List.cons_append]
    exact skip_ws_of_opens hopens
  rw [loads, hskip, hscan]
  rfl

end RoundTrip

/-! ## Lengths and characters of what is printed

What framing and size limits are about: a printed value is on one line, of printable characters,
and its length is the sum of its parts. -/

theorem dumps_array_length (ft : FloatText) (xs : List Json) :
    (dumps ft (.arr xs)).length =
      2 + (xs.map (fun x => (dumps ft x).length)).sum + (xs.length - 1) := by
  have hlist : ∀ xs : List Json, dumps_list ft xs = xs.map (dumps ft) := by
    intro xs
    induction xs with
    | nil => rfl
    | cons x xs ih => rw [dumps_list, ih, List.map_cons]
  rw [dumps, hlist, List.length_append, List.length_cons, join_length, List.map_map,
    List.length_map, List.length_singleton]
  simp only [Function.comp_def]
  omega

theorem dumps_object_length (ft : FloatText) (items : List (Text × Json)) :
    (dumps ft (.obj items)).length =
      2 + (items.map (fun kv => (dumps_str kv.1).length + 1 + (dumps ft kv.2).length)).sum
        + (items.length - 1) := by
  have hlist : ∀ items : List (Text × Json),
      dumps_items ft items = items.map (fun kv => dumps_str kv.1 ++ ':' :: dumps ft kv.2) := by
    intro items
    induction items with
    | nil => rfl
    | cons kv items ih =>
      obtain ⟨k, v⟩ := kv
      rw [dumps_items, ih, List.map_cons]
  rw [dumps, hlist, List.length_append, List.length_cons, join_length, List.map_map,
    List.length_map, List.length_singleton]
  simp only [Function.comp_def, List.length_append, List.length_cons]
  have hsum : ∀ kv : Text × Json, (dumps_str kv.1).length + ((dumps ft kv.2).length + 1) =
      (dumps_str kv.1).length + 1 + (dumps ft kv.2).length := fun kv => by omega
  simp only [hsum]
  omega

theorem dumps_text_length (ft : FloatText) {s : Text} (h : PlainText s) :
    (dumps ft (.str s)).length = s.length + 2 := dumps_str_length h

theorem dumps_seq_length (ft : FloatText) (seq : ℕ) :
    (dumps ft (.int seq)).length = (to_dec seq).length := by
  have hneg : ¬ ((seq : ℤ) < 0) := by omega
  rw [dumps, dumps_int, if_neg hneg, Int.natAbs_natCast]

/-- A character that is printed without an escape, or the punctuation of a value. -/
def Printable (c : Char) : Prop := 32 ≤ c.toNat ∧ c.toNat ≤ 126

instance : DecidablePred Printable :=
  fun c => inferInstanceAs (Decidable (32 ≤ c.toNat ∧ c.toNat ≤ 126))

theorem printable_dumps_str {s : Text} (h : PlainText s) : ∀ c ∈ dumps_str s, Printable c := by
  rw [dumps_str_plain h]
  intro c hc
  rcases List.mem_append.mp hc with hc | hc
  · rcases List.mem_cons.mp hc with rfl | hc
    · decide
    · exact ⟨(h c hc).1, (h c hc).2.1⟩
  · rw [List.mem_singleton.mp hc]
    decide

theorem printable_join {sep open_ close : Char} {parts : List Text} (hsep : Printable sep)
    (hopen : Printable open_) (hclose : Printable close)
    (h : ∀ part ∈ parts, ∀ c ∈ part, Printable c) :
    ∀ c ∈ open_ :: join sep parts ++ [close], Printable c := by
  intro c hc
  rcases List.mem_append.mp hc with hc | hc
  · rcases List.mem_cons.mp hc with rfl | hc
    · exact hopen
    · rcases mem_join hc with rfl | ⟨part, hpart, hc⟩
      · exact hsep
      · exact h part hpart c hc
  · rwa [List.mem_singleton.mp hc]

mutual

/-- No character of a printed value ends a line. -/
theorem printable_dumps (ft : FloatText) (v : Json) (hv : Wire v) :
    ∀ c ∈ dumps ft v, Printable c := by
  match v, hv with
  | .null, _ => exact (show ∀ c ∈ "null".toList, Printable c by decide)
  | .bool true, _ => exact (show ∀ c ∈ "true".toList, Printable c by decide)
  | .bool false, _ => exact (show ∀ c ∈ "false".toList, Printable c by decide)
  | .int n, hv =>
    intro c hc
    rw [Wire] at hv
    rw [dumps, dumps_int, if_neg (not_lt.mpr hv.1)] at hc
    have hdigit := mem_to_dec hc
    unfold is_digit at hdigit
    rw [Bool.and_eq_true, decide_eq_true_eq, decide_eq_true_eq] at hdigit
    have h0 : 48 ≤ c.toNat := hdigit.1
    have h9 : c.toNat ≤ 57 := hdigit.2
    exact ⟨by omega, by omega⟩
  | .str s, hv => exact printable_dumps_str hv
  | .arr xs, hv =>
    rw [Wire] at hv
    rw [dumps]
    exact printable_join (by decide) (by decide) (by decide) (printable_dumps_list ft xs hv)
  | .obj items, hv =>
    rw [Wire] at hv
    rw [dumps]
    exact printable_join (by decide) (by decide) (by decide) (printable_dumps_items ft items hv.2)

theorem printable_dumps_list (ft : FloatText) (xs : List Json) (h : WireList xs) :
    ∀ part ∈ dumps_list ft xs, ∀ c ∈ part, Printable c := by
  match xs, h with
  | [], _ => simp [dumps_list]
  | x :: xs, h =>
    rw [WireList] at h
    rw [dumps_list, List.forall_mem_cons]
    exact ⟨printable_dumps ft x h.1, printable_dumps_list ft xs h.2⟩

theorem printable_dumps_items (ft : FloatText) (items : List (Text × Json)) (h : WireItems items) :
    ∀ part ∈ dumps_items ft items, ∀ c ∈ part, Printable c := by
  match items, h with
  | [], _ => simp [dumps_items]
  | (k, v) :: items, h =>
    rw [WireItems] at h
    rw [dumps_items, List.forall_mem_cons]
    refine ⟨?_, printable_dumps_items ft items h.2.2⟩
    intro c hc
    rcases List.mem_append.mp hc with hc | hc
    · exact printable_dumps_str h.1 c hc
    · rcases List.mem_cons.mp hc with rfl | hc
      · decide
      · exact printable_dumps ft v h.2.1 c hc

end

end F2bguard.PyJson
