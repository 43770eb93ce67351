/-
What is printed says what was printed.

`json.dumps` of the values that are hashed is a prefix code: two texts that start with printed
values and go on with something that cannot belong to a number start with the same value
(`dumps_code`). The strings in these values are plain and the floats are finite. Of
`float.__repr__` the proof needs that its texts are made of the characters of numbers, are never
those of an integer, and say which float they print.
-/
import F2bguard.PyJson

set_option autoImplicit false

namespace F2bguard.PyJson

open F2bguard.PyText

/-- The characters of a printed number. -/
def is_number_char (c : Char) : Bool :=
  is_digit c || c = '-' || c = '+' || c = '.' || c = 'e'

/-- What the printed floats tell: `float(repr(x)) == x`, and a point or an exponent sets them
apart from the integers. -/
structure FloatText.Faithful (ft : FloatText) : Prop where
  chars : ∀ q, ∀ c ∈ ft.repr q, is_number_char c = true
  mark : ∀ q, '.' ∈ ft.repr q ∨ 'e' ∈ ft.repr q
  injective : Function.Injective ft.repr

mutual

/-- The values that are hashed: plain strings and finite floats. -/
def Clear : Json → Prop
  | .null => True
  | .bool _ => True
  | .int _ => True
  | .float x => ∃ q, x = .finite q
  | .str s => PlainText s
  | .arr xs => ClearList xs
  | .obj items => ClearItems items

def ClearList : List Json → Prop
  | [] => True
  | x :: xs => Clear x ∧ ClearList xs

def ClearItems : List (Text × Json) → Prop
  | [] => True
  | (k, v) :: items => PlainText k ∧ Clear v ∧ ClearItems items

end

/-- A value that ends here has come to its end. -/
def Ends (rest : Text) : Prop := ∀ c, rest.head? = some c → is_number_char c = false

theorem ends_cons {c : Char} (h : is_number_char c = false) (cs : Text) : Ends (c :: cs) := by
  intro d hd
  cases hd
  exact h

theorem ends_nil : Ends [] := fun _ h => (by cases h)

/-! ## Numbers

A number ends at the first character that is none of a number, so two texts that start with
numbers and are equal start with the same one. -/

theorem dumps_int_chars (n : ℤ) : ∀ c ∈ dumps_int n, is_digit c = true ∨ c = '-' := by
  intro c hc
  unfold dumps_int at hc
  split at hc
  · rcases List.mem_cons.mp hc with rfl | hc
    · exact .inr rfl
    · exact .inl (mem_to_dec hc)
  · exact .inl (mem_to_dec hc)

theorem number_char_of_int {c : Char} (h : is_digit c = true ∨ c = '-') : is_number_char c = true := by
  rcases h with h | rfl
  · simp [is_number_char, h]
  · decide

theorem dumps_int_injective : Function.Injective dumps_int := by
  have hminus : ∀ n : ℕ, (to_dec n).head? ≠ some '-' := by
    intro n h
    exact absurd (mem_to_dec (List.mem_of_mem_head? h)) (by decide)
  intro m n h
  unfold dumps_int at h
  split at h <;> split at h
  · have := to_dec_injective (List.cons.inj h).2
    omega
  · exact absurd (h ▸ rfl) (hminus n.natAbs)
  · exact absurd (h ▸ rfl) (hminus m.natAbs)
  · have := to_dec_injective h
    omega

/-- A number is read up to the first character that is none of its own. -/
theorem number_code {s s' rest rest' : Text} (hs : ∀ c ∈ s, is_number_char c = true)
    (hs' : ∀ c ∈ s', is_number_char c = true) (hrest : Ends rest) (hrest' : Ends rest')
    (h : s ++ rest = s' ++ rest') : s = s' ∧ rest = rest' := by
  have htake : ∀ {s rest : Text}, (∀ c ∈ s, is_number_char c = true) → Ends rest →
      (s ++ rest).takeWhile is_number_char = s := by
    intro s rest hs hrest
    rw [List.takeWhile_append_of_pos hs]
    cases rest with
    | nil => simp
    | cons c cs =>
      rw [List.takeWhile_cons_of_neg (by rw [hrest c rfl]; decide), List.append_nil]
  have heq : s = s' := by rw [← htake hs hrest, h, htake hs' hrest']
  subst heq
  exact ⟨rfl, List.append_cancel_left h⟩

/-! ## Strings

A plain string ends at its quote. -/

theorem append_cons_inj {c : Char} {a b x y : Text} (ha : c ∉ a) (hb : c ∉ b)
    (h : a ++ c :: x = b ++ c :: y) : a = b ∧ x = y := by
  induction a generalizing b with
  | nil =>
    cases b with
    | nil => exact ⟨rfl, (List.cons.inj h).2⟩
    | cons d b => exact absurd (List.mem_cons.mpr (.inl (List.cons.inj h).1)) hb
  | cons d a ih =>
    cases b with
    | nil => exact absurd (List.mem_cons.mpr (.inl (List.cons.inj h).1.symm)) ha
    | cons d' b =>
      obtain ⟨rfl, htail⟩ := List.cons.inj h
      obtain ⟨rfl, rfl⟩ := ih (fun hm => ha (List.mem_cons_of_mem _ hm))
        (fun hm => hb (List.mem_cons_of_mem _ hm)) htail
      exact ⟨rfl, rfl⟩

theorem str_code {s s' rest rest' : Text} (hs : PlainText s) (hs' : PlainText s')
    (h : dumps_str s ++ rest = dumps_str s' ++ rest') : s = s' ∧ rest = rest' := by
  have hquote : ∀ {s : Text}, PlainText s → '"' ∉ s := fun hs hm => (hs '"' hm).2.2.1 rfl
  rw [dumps_str_plain hs, dumps_str_plain hs', List.append_assoc, List.append_assoc] at h
  exact append_cons_inj (hquote hs) (hquote hs') (List.cons.inj h).2

/-! ## Values

The first character tells which kind of value follows. The induction goes through the first value
and reads the second along with it. -/

/-- Which kind of value a character starts. -/
def kind (c : Char) : ℕ :=
  if c = 'n' then 0 else if c = 't' then 1 else if c = 'f' then 2 else if c = '"' then 3
  else if c = '[' then 4 else if c = '\x7b' then 5 else if is_number_char c then 6 else 7

def Json.kind : Json → ℕ
  | .null => 0
  | .bool true => 1
  | .bool false => 2
  | .str _ => 3
  | .arr _ => 4
  | .obj _ => 5
  | .int _ => 6
  | .float _ => 6

theorem kind_of_number {c : Char} (h : is_number_char c = true) : kind c = 6 := by
  unfold kind
  have hne : ∀ d, is_number_char d = false → c ≠ d := by
    rintro d hd rfl
    rw [hd] at h
    cases h
  rw [if_neg (hne 'n' (by decide)), if_neg (hne 't' (by decide)), if_neg (hne 'f' (by decide)),
    if_neg (hne '"' (by decide)), if_neg (hne '[' (by decide)), if_neg (hne '\x7b' (by decide)),
    if_pos h]

theorem dumps_kind {ft : FloatText} (hft : ft.Faithful) {v : Json} (hv : Clear v) :
    ∃ c cs, dumps ft v = c :: cs ∧ kind c = v.kind := by
  have hnumber : ∀ {s : Text}, s ≠ [] → (∀ c ∈ s, is_number_char c = true) →
      ∃ c cs, s = c :: cs ∧ kind c = 6 := by
    intro s hne hs
    obtain ⟨c, cs, rfl⟩ := List.exists_cons_of_ne_nil hne
    exact ⟨c, cs, rfl, kind_of_number (hs c List.mem_cons_self)⟩
  cases v with
  | null => exact ⟨'n', _, rfl, by decide⟩
  | bool b =>
    cases b with
    | true => exact ⟨'t', _, rfl, by decide⟩
    | false => exact ⟨'f', _, rfl, by decide⟩
  | str s => exact ⟨'"', (code_points s).flatMap escape_char ++ ['"'], by rw [dumps]; rfl,
      show kind '"' = 3 by decide⟩
  | arr xs => exact ⟨'[', _, rfl, show kind '[' = 4 by decide⟩
  | obj items => exact ⟨'\x7b', _, rfl, show kind '\x7b' = 5 by decide⟩
  | int n =>
    rw [dumps]
    refine hnumber ?_ (fun c hc => number_char_of_int (dumps_int_chars n c hc))
    unfold dumps_int
    split
    · exact List.cons_ne_nil _ _
    · exact to_dec_ne_nil _
  | float x =>
    rw [Clear] at hv
    obtain ⟨q, rfl⟩ := hv
    rw [show dumps ft (.float (.finite q)) = ft.repr q from rfl]
    refine hnumber (fun hnil => ?_) (hft.chars q)
    have hmark := hft.mark q
    rw [hnil] at hmark
    rcases hmark with h | h
    · exact absurd h List.not_mem_nil
    · exact absurd h List.not_mem_nil

/-- What follows an element of an array. -/
def list_tail (ft : FloatText) : List Json → Text → Text
  | [], rest => ']' :: rest
  | x :: xs, rest => ',' :: (dumps ft x ++ list_tail ft xs rest)

/-- What follows an item of an object. -/
def items_tail (ft : FloatText) : List (Text × Json) → Text → Text
  | [], rest => '\x7d' :: rest
  | (k, v) :: items, rest => ',' :: (dumps_str k ++ ':' :: (dumps ft v ++ items_tail ft items rest))

theorem join_list (ft : FloatText) (x : Json) (xs : List Json) (rest : Text) :
    join ',' (dumps_list ft (x :: xs)) ++ ']' :: rest = dumps ft x ++ list_tail ft xs rest := by
  induction xs generalizing x with
  | nil => rw [dumps_list, dumps_list, join_singleton, list_tail]
  | cons y ys ih =>
    have hstep := ih y
    rw [dumps_list] at hstep
    rw [dumps_list, dumps_list, join_cons_cons, List.append_assoc, List.cons_append, hstep, list_tail]

theorem join_items (ft : FloatText) (k : Text) (v : Json) (items : List (Text × Json))
    (rest : Text) : join ',' (dumps_items ft ((k, v) :: items)) ++ '\x7d' :: rest =
      dumps_str k ++ ':' :: (dumps ft v ++ items_tail ft items rest) := by
  induction items generalizing k v with
  | nil => simp [dumps_items, items_tail]
  | cons item items ih =>
    obtain ⟨k', v'⟩ := item
    have hstep := ih k' v'
    rw [dumps_items] at hstep
    rw [dumps_items, dumps_items, join_cons_cons, List.append_assoc, List.cons_append, hstep,
      items_tail, List.append_assoc, List.cons_append]

theorem ends_list_tail (ft : FloatText) (xs : List Json) (rest : Text) :
    Ends (list_tail ft xs rest) := by
  cases xs with
  | nil => exact ends_cons (by decide) _
  | cons x xs => exact ends_cons (by decide) _

theorem ends_items_tail (ft : FloatText) (items : List (Text × Json)) (rest : Text) :
    Ends (items_tail ft items rest) := by
  cases items with
  | nil => exact ends_cons (by decide) _
  | cons item items =>
    obtain ⟨k, v⟩ := item
    exact ends_cons (by decide) _

section Code

variable {ft : FloatText}

/-- Values of the kind of a number. -/
theorem numeral_code (hft : ft.Faithful) {v v' : Json} {rest rest' : Text} (hv : Clear v) (hv' : Clear v')
    (hkind : v.kind = 6) (hkind' : v'.kind = 6) (hrest : Ends rest) (hrest' : Ends rest')
    (h : dumps ft v ++ rest = dumps ft v' ++ rest') : v = v' ∧ rest = rest' := by
  have hint : ∀ n : ℤ, '.' ∉ dumps_int n ∧ 'e' ∉ dumps_int n := by
    refine fun n => ⟨fun hm => ?_, fun hm => ?_⟩
    · rcases dumps_int_chars n _ hm with h | h
      · exact absurd h (by decide)
      · exact absurd h (by decide)
    · rcases dumps_int_chars n _ hm with h | h
      · exact absurd h (by decide)
      · exact absurd h (by decide)
  have hdiffer : ∀ (n : ℤ) (q : ℚ), dumps_int n ≠ ft.repr q := by
    intro n q heq
    have hmark := hft.mark q
    rw [← heq] at hmark
    rcases hmark with hm | hm
    · exact (hint n).1 hm
    · exact (hint n).2 hm
  have hchars : ∀ n : ℤ, ∀ c ∈ dumps_int n, is_number_char c = true :=
    fun n c hc => number_char_of_int (dumps_int_chars n c hc)
  cases v with
  | int n =>
    cases v' with
    | int n' =>
      obtain ⟨heq, hr⟩ := number_code (hchars n) (hchars n') hrest hrest' h
      exact ⟨by rw [dumps_int_injective heq], hr⟩
    | float x' =>
      obtain ⟨q', rfl⟩ := hv'
      obtain ⟨heq, -⟩ := number_code (hchars n) (hft.chars q') hrest hrest' h
      exact absurd heq (hdiffer n q')
    | bool b' => cases b' <;> cases hkind'
    | _ => cases hkind'
  | float x =>
    obtain ⟨q, rfl⟩ := hv
    cases v' with
    | int n' =>
      obtain ⟨heq, -⟩ := number_code (hft.chars q) (hchars n') hrest hrest' h
      exact absurd heq.symm (hdiffer n' q)
    | float x' =>
      obtain ⟨q', rfl⟩ := hv'
      obtain ⟨heq, hr⟩ := number_code (hft.chars q) (hft.chars q') hrest hrest' h
      exact ⟨by rw [hft.injective heq], hr⟩
    | bool b' => cases b' <;> cases hkind'
    | _ => cases hkind'
  | bool b => cases b <;> cases hkind
  | _ => cases hkind

theorem same_kind (hft : ft.Faithful) {v v' : Json} {rest rest' : Text} (hv : Clear v)
    (hv' : Clear v') (h : dumps ft v ++ rest = dumps ft v' ++ rest') : v.kind = v'.kind := by
  obtain ⟨c, cs, hc, hkind⟩ := dumps_kind hft hv
  obtain ⟨c', cs', hc', hkind'⟩ := dumps_kind hft hv'
  rw [hc, hc'] at h
  rw [← hkind, ← hkind', (List.cons.inj h).1]

mutual

/-- The induction is on the value; the rest of the text goes along. -/
theorem dumps_code (hft : ft.Faithful) (v v' : Json) (hv : Clear v) (hv' : Clear v')
    (rest rest' : Text) (hrest : Ends rest) (hrest' : Ends rest')
    (h : dumps ft v ++ rest = dumps ft v' ++ rest') : v = v' ∧ rest = rest' := by
  have hkind := same_kind hft hv hv' h
  match v, v', hv, hv', h, hkind with
  | .null, .null, _, _, h, _ => exact ⟨rfl, List.append_cancel_left h⟩
  | .bool true, .bool true, _, _, h, _ => exact ⟨rfl, List.append_cancel_left h⟩
  | .bool false, .bool false, _, _, h, _ => exact ⟨rfl, List.append_cancel_left h⟩
  | .int n, v', hv, hv', h, hkind => exact numeral_code hft hv hv' rfl hkind.symm hrest hrest' h
  | .float x, v', hv, hv', h, hkind => exact numeral_code hft hv hv' rfl hkind.symm hrest hrest' h
  | .str s, .str s', hv, hv', h, _ =>
    obtain ⟨hs, hr⟩ := str_code hv hv' h
    exact ⟨by rw [hs], hr⟩
  | .arr xs, .arr xs', hv, hv', h, _ =>
    rw [dumps, dumps, List.append_assoc, List.append_assoc] at h
    obtain ⟨hxs, hr⟩ := array_code hft xs xs' hv hv' rest rest' (List.cons.inj h).2
    exact ⟨by rw [hxs], hr⟩
  | .obj items, .obj items', hv, hv', h, _ =>
    rw [dumps, dumps, List.append_assoc, List.append_assoc] at h
    obtain ⟨hitems, hr⟩ := object_code hft items items' hv hv' rest rest' (List.cons.inj h).2
    exact ⟨by rw [hitems], hr⟩
  termination_by sizeOf v

theorem array_code (hft : ft.Faithful) (xs xs' : List Json) (hxs : ClearList xs)
    (hxs' : ClearList xs') (rest rest' : Text) (h : join ',' (dumps_list ft xs) ++ ']' :: rest =
      join ',' (dumps_list ft xs') ++ ']' :: rest') : xs = xs' ∧ rest = rest' := by
  have hclose : ∀ {x : Json} {s t : Text}, Clear x → ']' :: s ≠ dumps ft x ++ t := by
    intro x s t hx heq
    obtain ⟨c, cs, hc, hkind⟩ := dumps_kind hft hx
    rw [hc] at heq
    rw [← (List.cons.inj heq).1] at hkind
    cases x with
    | bool b => cases b <;> cases hkind
    | _ => cases hkind
  match xs, xs', hxs, hxs', h with
  | [], [], _, _, h => exact ⟨rfl, (List.cons.inj h).2⟩
  | [], x' :: xs', _, hxs', h =>
    rw [join_list] at h
    exact absurd h (hclose hxs'.1)
  | x :: xs, [], hxs, _, h =>
    rw [join_list] at h
    exact absurd h.symm (hclose hxs.1)
  | x :: xs, x' :: xs', hxs, hxs', h =>
    rw [join_list, join_list] at h
    obtain ⟨hx, htail⟩ := dumps_code hft x x' hxs.1 hxs'.1 _ _ (ends_list_tail ft xs rest)
      (ends_list_tail ft xs' rest') h
    obtain ⟨hxs, hr⟩ := list_tail_code hft xs xs' hxs.2 hxs'.2 rest rest' htail
    exact ⟨by rw [hx, hxs], hr⟩
  termination_by sizeOf xs

theorem list_tail_code (hft : ft.Faithful) (xs xs' : List Json) (hxs : ClearList xs)
    (hxs' : ClearList xs') (rest rest' : Text)
    (h : list_tail ft xs rest = list_tail ft xs' rest') : xs = xs' ∧ rest = rest' := by
  match xs, xs', hxs, hxs', h with
  | [], [], _, _, h => exact ⟨rfl, (List.cons.inj h).2⟩
  | [], x' :: xs', _, _, h => exact absurd (List.cons.inj h).1 (by decide)
  | x :: xs, [], _, _, h => exact absurd (List.cons.inj h).1 (by decide)
  | x :: xs, x' :: xs', hxs, hxs', h =>
    obtain ⟨hx, htail⟩ := dumps_code hft x x' hxs.1 hxs'.1 _ _ (ends_list_tail ft xs rest)
      (ends_list_tail ft xs' rest') (List.cons.inj h).2
    obtain ⟨hxs, hr⟩ := list_tail_code hft xs xs' hxs.2 hxs'.2 rest rest' htail
    exact ⟨by rw [hx, hxs], hr⟩
  termination_by sizeOf xs

theorem object_code (hft : ft.Faithful) (items items' : List (Text × Json))
    (hitems : ClearItems items) (hitems' : ClearItems items') (rest rest' : Text)
    (h : join ',' (dumps_items ft items) ++ '\x7d' :: rest =
      join ',' (dumps_items ft items') ++ '\x7d' :: rest') : items = items' ∧ rest = rest' := by
  match items, items', hitems, hitems', h with
  | [], [], _, _, h => exact ⟨rfl, (List.cons.inj h).2⟩
  | [], (k', v') :: items', _, _, h =>
    rw [join_items] at h
    exact absurd (List.cons.inj h).1 (by decide)
  | (k, v) :: items, [], _, _, h =>
    rw [join_items] at h
    exact absurd (List.cons.inj h).1 (by decide)
  | (k, v) :: items, (k', v') :: items', hitems, hitems', h =>
    rw [join_items, join_items] at h
    obtain ⟨hk, hcolon⟩ := str_code hitems.1 hitems'.1 h
    obtain ⟨hv, htail⟩ := dumps_code hft v v' hitems.2.1 hitems'.2.1 _ _
      (ends_items_tail ft items rest) (ends_items_tail ft items' rest') (List.cons.inj hcolon).2
    obtain ⟨hitems, hr⟩ := items_tail_code hft items items' hitems.2.2 hitems'.2.2 rest rest' htail
    exact ⟨by rw [hk, hv, hitems], hr⟩
  termination_by sizeOf items

theorem items_tail_code (hft : ft.Faithful) (items items' : List (Text × Json))
    (hitems : ClearItems items) (hitems' : ClearItems items') (rest rest' : Text)
    (h : items_tail ft items rest = items_tail ft items' rest') :
    items = items' ∧ rest = rest' := by
  match items, items', hitems, hitems', h with
  | [], [], _, _, h => exact ⟨rfl, (List.cons.inj h).2⟩
  | [], (k', v') :: items', _, _, h => exact absurd (List.cons.inj h).1 (by decide)
  | (k, v) :: items, [], _, _, h => exact absurd (List.cons.inj h).1 (by decide)
  | (k, v) :: items, (k', v') :: items', hitems, hitems', h =>
    obtain ⟨hk, hcolon⟩ := str_code hitems.1 hitems'.1 (List.cons.inj h).2
    obtain ⟨hv, htail⟩ := dumps_code hft v v' hitems.2.1 hitems'.2.1 _ _
      (ends_items_tail ft items rest) (ends_items_tail ft items' rest') (List.cons.inj hcolon).2
    obtain ⟨hitems, hr⟩ := items_tail_code hft items items' hitems.2.2 hitems'.2.2 rest rest' htail
    exact ⟨by rw [hk, hv, hitems], hr⟩
  termination_by sizeOf items

end

theorem dumps_injective (hft : ft.Faithful) {v v' : Json} (hv : Clear v) (hv' : Clear v')
    (h : dumps ft v = dumps ft v') : v = v' :=
  (dumps_code hft v v' hv hv' [] [] ends_nil ends_nil
    (by rw [List.append_nil, List.append_nil]; exact h)).1

end Code

end F2bguard.PyJson
