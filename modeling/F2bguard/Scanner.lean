/-
How far `scan_once` reads, and where it stops with an exception.

The recursion of the scanner is bounded by a number that no text uses up: every
value it reads is shorter than the text it reads it from, so twice the length is
enough and more makes no difference (`scan_once_stable`).

The decoder of `strict_json_loads` refuses bad syntax, repeated keys and the
constants of JavaScript with a `ConfigError`. Two exceptions are of another type:
the one for an integer of too many digits, and the one for too deep a nesting.
`Trips` says of a text that the scanner, reading from left to right, comes to
such a place; `escapes_loads_iff` is that this is when `loads` raises them.
-/
import F2bguard.Server

set_option autoImplicit false

namespace F2bguard.PyJson

open F2bguard.PyText
open F2bguard.Store (bind_eq_ok map_eq_ok)

/-! ## A value is shorter than the text it is read from

Every part of the scanner takes at least one character. That is what bounds the recursion, and
what the induction on the text needs. -/

theorem scan_hex4_length {s rest : Text} {n : ℕ} (h : scan_hex4 s = some (n, rest)) :
    rest.length ≤ s.length := by
  unfold scan_hex4 at h
  split at h
  · obtain ⟨m, -, hm⟩ := Option.map_eq_some_iff.mp h
    obtain ⟨-, rfl⟩ := Prod.mk.inj hm
    rw [List.length_drop]
    omega
  · cases h

theorem scan_unicode_length {s piece rest : Text} (h : scan_unicode s = some (piece, rest)) :
    rest.length ≤ s.length := by
  unfold scan_unicode at h
  split at h
  · cases h
  rename_i n more hhex
  have hmore := scan_hex4_length hhex
  split at h
  · split at h
    · rename_i low
      split at h
      · rename_i m rest' hlow
        have hrest' := scan_hex4_length hlow
        rw [List.length_cons, List.length_cons] at hmore
        split at h
        · obtain ⟨-, rfl⟩ := Prod.mk.inj (Option.some.inj h)
          omega
        · obtain ⟨-, rfl⟩ := Prod.mk.inj (Option.some.inj h)
          rw [List.length_cons, List.length_cons]
          omega
      · obtain ⟨-, rfl⟩ := Prod.mk.inj (Option.some.inj h)
        exact hmore
    · obtain ⟨-, rfl⟩ := Prod.mk.inj (Option.some.inj h)
      exact hmore
  · obtain ⟨-, rfl⟩ := Prod.mk.inj (Option.some.inj h)
    exact hmore

theorem scan_escape_length {s piece rest : Text} (h : scan_escape s = some (piece, rest)) :
    rest.length < s.length := by
  unfold scan_escape at h
  split at h
  · cases h
  · rw [List.length_cons]
    exact Nat.lt_succ_of_le (scan_unicode_length h)
  · obtain ⟨ch, -, hch⟩ := Option.map_eq_some_iff.mp h
    obtain ⟨-, rfl⟩ := Prod.mk.inj hch
    exact Nat.lt_succ_self _

theorem scan_string_length {fuel : ℕ} {read s t rest : Text}
    (h : scan_string fuel read s = some (t, rest)) : rest.length < s.length := by
  induction fuel generalizing read s with
  | zero => cases h
  | succ fuel ih =>
    cases s with
    | nil => cases h
    | cons c cs =>
      rw [List.length_cons]
      unfold scan_string at h
      split at h
      · obtain ⟨-, rfl⟩ := Prod.mk.inj (Option.some.inj h)
        exact Nat.lt_succ_self _
      split at h
      · obtain ⟨⟨ch, more⟩, hescape, h⟩ := Option.bind_eq_some_iff.mp h
        exact Nat.lt_of_lt_of_le (ih h) (Nat.le_succ_of_le (Nat.le_of_lt (scan_escape_length hescape)))
      split at h
      · cases h
      · have := ih h
        omega

variable {ε : Type} (d : Decoder ε)

theorem scan_str_length {s t rest : Text} (h : scan_str d s = .ok (t, rest)) :
    rest.length < s.length := by
  unfold scan_str at h
  split at h
  · rename_i r hr
    cases h
    exact scan_string_length hr
  · cases h

theorem scan_integer_length {s digits rest : Text} {negative : Bool}
    (h : scan_integer s = some (negative, digits, rest)) : rest.length < s.length := by
  have hdropped : ∀ cs : Text, (cs.dropWhile is_digit).length ≤ cs.length :=
    fun cs => (List.dropWhile_suffix is_digit).length_le
  unfold scan_integer at h
  split at h
  rename_i negative' ds hsign
  have hds : ds.length ≤ s.length := by
    split at hsign
    · cases hsign
      exact Nat.le_succ _
    · cases hsign
      exact Nat.le_refl _
  refine Nat.lt_of_lt_of_le ?_ hds
  split at h
  · cases h
    exact Nat.lt_succ_self _
  · split at h
    · cases h
      exact Nat.lt_succ_of_le (hdropped _)
    · cases h
  · cases h

theorem scan_fraction_length (s : Text) : (scan_fraction s).2.length ≤ s.length := by
  unfold scan_fraction
  split
  · split
    · exact Nat.le_refl _
    · exact Nat.le_succ_of_le (List.dropWhile_suffix is_digit).length_le
  · exact Nat.le_refl _

theorem scan_exponent_length (s : Text) : (scan_exponent s).2.length ≤ s.length := by
  unfold scan_exponent
  split
  · split
    · rename_i e cs _
      split
      rename_i sign digits hsign
      have hdigits : digits.length ≤ cs.length := by
        split at hsign
        · cases hsign
          exact Nat.le_succ _
        · cases hsign
          exact Nat.le_succ _
        · cases hsign
          exact Nat.le_refl _
      split
      · exact Nat.le_refl _
      · exact Nat.le_succ_of_le
          (Nat.le_trans (List.dropWhile_suffix is_digit).length_le hdigits)
    · exact Nat.le_refl _
  · exact Nat.le_refl _

theorem scan_number_length {s rest : Text} {v : Json} (h : scan_number d s = .ok (v, rest)) :
    rest.length < s.length := by
  unfold scan_number at h
  split at h
  · cases h
  rename_i negative digits more hinteger
  have hmore := scan_integer_length hinteger
  have hfraction := scan_fraction_length more
  have hexponent := scan_exponent_length (scan_fraction more).2
  dsimp only at h
  split at h
  · split at h
    · cases h
    split at h
    · cases h
      exact hmore
    · cases h
      exact hmore
  · cases h
    omega

theorem after_length {literal s rest : Text} (hne : literal ≠ [])
    (h : after literal s = some rest) : rest.length < s.length := by
  unfold after at h
  split at h
  · rename_i htake
    cases h
    have hpos : 0 < literal.length := List.length_pos_of_ne_nil hne
    have hlen := congrArg List.length htake
    rw [List.length_take] at hlen
    rw [List.length_drop]
    omega
  · cases h

theorem scan_scalar_length {s rest : Text} {v : Json} (h : scan_scalar d s = .ok (v, rest)) :
    rest.length < s.length := by
  have hconstant : ∀ {literal name more : Text}, literal ≠ [] → after literal s = some more →
      (d.parse_constant name).map (fun v => (v, more)) = .ok (v, rest) →
      rest.length < s.length := by
    intro literal name more hne hafter h
    cases hparse : d.parse_constant name with
    | error e =>
      rw [hparse] at h
      cases h
    | ok w =>
      rw [hparse] at h
      cases h
      exact after_length hne hafter
  unfold scan_scalar at h
  split at h
  · cases h
    exact after_length (by decide) ‹after "null".toList s = some _›
  · cases h
    exact after_length (by decide) ‹after "true".toList s = some _›
  · cases h
    exact after_length (by decide) ‹after "false".toList s = some _›
  · exact hconstant (by decide) ‹after "NaN".toList s = some _› h
  · exact hconstant (by decide) ‹after "Infinity".toList s = some _› h
  · exact hconstant (by decide) ‹after "-Infinity".toList s = some _› h
  · exact scan_number_length d h

theorem skip_ws_length (s : Text) : (skip_ws s).length ≤ s.length :=
  (List.dropWhile_suffix is_ws).length_le

theorem scan_key_length {s key value : Text} (h : scan_key d s = .ok (key, value)) :
    value.length < s.length := by
  unfold scan_key at h
  split at h
  · cases hstr : scan_str d s.tail with
    | error e =>
      rw [hstr] at h
      cases h
    | ok r =>
      rw [hstr] at h
      replace h : (if (skip_ws r.2).head? = some ':' then
          Except.ok (r.1, skip_ws (skip_ws r.2).tail) else .error d.decode_error) =
        Except.ok (key, value) := h
      split at h
      · cases h
        have hrest := scan_str_length d (show scan_str d _ = .ok (r.1, r.2) from hstr)
        have hcolon := skip_ws_length r.2
        have hvalue := skip_ws_length (skip_ws r.2).tail
        rw [List.length_tail] at hrest hvalue
        omega
      · cases h
  · cases h

/-! ## What was read

A value that was read is a string, an array, an object or a scalar; the elements of an array and
the items of an object end with their bracket, or go on after a comma. -/

theorem scan_once_eq_ok {fuel depth : ℕ} {c : Char} {cs rest : Text} {v : Json} :
    scan_once d (fuel + 1) depth (c :: cs) = .ok (v, rest) ↔
      (c = '"' ∧ ∃ t, scan_str d cs = .ok (t, rest) ∧ v = .str t) ∨
      (c = '[' ∧ ∃ inner, depth = inner + 1 ∧
        (((skip_ws cs).head? = some ']' ∧ v = .arr [] ∧ rest = (skip_ws cs).tail) ∨
          ((skip_ws cs).head? ≠ some ']' ∧
            ∃ vs, scan_array d fuel inner (skip_ws cs) = .ok (vs, rest) ∧ v = .arr vs))) ∨
      (c = '\x7b' ∧ ∃ inner, depth = inner + 1 ∧
        (((skip_ws cs).head? = some '\x7d' ∧ d.object_pairs_hook [] = .ok v ∧
            rest = (skip_ws cs).tail) ∨
          ((skip_ws cs).head? ≠ some '\x7d' ∧
            ∃ items, scan_object d fuel inner (skip_ws cs) = .ok (items, rest) ∧
              d.object_pairs_hook items = .ok v))) ∨
      (c ≠ '"' ∧ c ≠ '[' ∧ c ≠ '\x7b' ∧ scan_scalar d (c :: cs) = .ok (v, rest)) := by
  rw [scan_once]
  by_cases hquote : c = '"'
  · subst hquote
    rw [if_pos rfl, map_eq_ok]
    simp [eq_comm]
  rw [if_neg hquote]
  by_cases hbracket : c = '['
  · subst hbracket
    rw [if_pos rfl]
    cases depth with
    | zero => simp [descend]
    | succ inner =>
      simp only [descend]
      by_cases hclose : (skip_ws cs).head? = some ']'
      · rw [if_pos hclose]
        simp [hclose, eq_comm]
      · rw [if_neg hclose, map_eq_ok]
        simp [hclose, eq_comm]
  rw [if_neg hbracket]
  by_cases hbrace : c = '\x7b'
  · subst hbrace
    rw [if_pos rfl]
    cases depth with
    | zero => simp [descend]
    | succ inner =>
      simp only [descend]
      by_cases hclose : (skip_ws cs).head? = some '\x7d'
      · rw [if_pos hclose, map_eq_ok]
        simp [hclose, eq_comm]
      · rw [if_neg hclose, bind_eq_ok]
        simp [hclose, map_eq_ok]
  rw [if_neg hbrace]
  simp [hquote, hbracket, hbrace]

theorem scan_array_eq_ok {fuel depth : ℕ} {s rest : Text} {vs : List Json} :
    scan_array d (fuel + 1) depth s = .ok (vs, rest) ↔
      ∃ v more, scan_once d fuel depth s = .ok (v, more) ∧
        (((skip_ws more).head? = some ']' ∧ vs = [v] ∧ rest = (skip_ws more).tail) ∨
          ((skip_ws more).head? = some ',' ∧ ∃ vs', vs = v :: vs' ∧
            scan_array d fuel depth (skip_ws (skip_ws more).tail) = .ok (vs', rest))) := by
  rw [scan_array, bind_eq_ok, Prod.exists]
  refine exists_congr fun v => exists_congr fun more => and_congr_right fun _ => ?_
  dsimp only
  by_cases hclose : (skip_ws more).head? = some ']'
  · rw [if_pos hclose]
    simp [hclose, eq_comm]
  rw [if_neg hclose]
  by_cases hcomma : (skip_ws more).head? = some ','
  · rw [if_pos hcomma, map_eq_ok]
    simp [hcomma, eq_comm, and_comm]
  · rw [if_neg hcomma]
    simp [hclose, hcomma]

theorem scan_object_eq_ok {fuel depth : ℕ} {s rest : Text} {items : List (Text × Json)} :
    scan_object d (fuel + 1) depth s = .ok (items, rest) ↔
      ∃ key value, scan_key d s = .ok (key, value) ∧
        ∃ v more, scan_once d fuel depth value = .ok (v, more) ∧
          (((skip_ws more).head? = some '\x7d' ∧ items = [(key, v)] ∧ rest = (skip_ws more).tail) ∨
            ((skip_ws more).head? = some ',' ∧ ∃ items', items = (key, v) :: items' ∧
              scan_object d fuel depth (skip_ws (skip_ws more).tail) = .ok (items', rest))) := by
  rw [scan_object, bind_eq_ok, Prod.exists]
  refine exists_congr fun key => exists_congr fun value => and_congr_right fun _ => ?_
  rw [bind_eq_ok, Prod.exists]
  refine exists_congr fun v => exists_congr fun more => and_congr_right fun _ => ?_
  dsimp only
  by_cases hclose : (skip_ws more).head? = some '\x7d'
  · rw [if_pos hclose]
    simp [hclose, eq_comm]
  rw [if_neg hclose]
  by_cases hcomma : (skip_ws more).head? = some ','
  · rw [if_pos hcomma, map_eq_ok]
    simp [hcomma, eq_comm, and_comm]
  · rw [if_neg hcomma]
    simp [hclose, hcomma]

/-! ## What is left of the text

The lengths again, for the three mutually recursive parts at once. -/

/-- What is read of a value, of the elements of an array and of the items of an object. -/
theorem scan_length (fuel : ℕ) : ∀ (depth : ℕ) (s rest : Text),
    (∀ v, scan_once d fuel depth s = .ok (v, rest) → rest.length < s.length) ∧
    (∀ vs, scan_array d fuel depth s = .ok (vs, rest) → rest.length < s.length) ∧
    (∀ items, scan_object d fuel depth s = .ok (items, rest) → rest.length < s.length) := by
  induction fuel with
  -- without fuel nothing is read
  | zero =>
    exact fun depth s rest => ⟨fun v h => (by cases h), fun vs h => (by cases h),
      fun items h => (by cases h)⟩
  | succ fuel ih =>
    intro depth s rest
    refine ⟨fun v h => ?_, fun vs h => ?_, fun items h => ?_⟩
    · cases s with
      | nil => cases h
      | cons c cs =>
        have hcs := skip_ws_length cs
        rcases (scan_once_eq_ok d).mp h with ⟨-, t, hstr, -⟩ | ⟨-, inner, -, harray⟩ |
          ⟨-, inner, -, hobject⟩ | ⟨-, -, -, hscalar⟩
        · exact Nat.lt_succ_of_lt (scan_str_length d hstr)
        · -- an array costs its bracket
          rcases harray with ⟨-, -, rfl⟩ | ⟨-, vs, harray, -⟩
          · rw [List.length_tail, List.length_cons]
            omega
          · have hread := (ih inner (skip_ws cs) rest).2.1 vs harray
            rw [List.length_cons]
            omega
        · rcases hobject with ⟨-, -, rfl⟩ | ⟨-, items, hobject, -⟩
          · rw [List.length_tail, List.length_cons]
            omega
          · have hread := (ih inner (skip_ws cs) rest).2.2 items hobject
            rw [List.length_cons]
            omega
        · exact scan_scalar_length d hscalar
    · obtain ⟨v, more, hvalue, hend⟩ := (scan_array_eq_ok d).mp h
      have hmore := (ih depth s more).1 v hvalue
      have hskip := skip_ws_length more
      rcases hend with ⟨-, -, rfl⟩ | ⟨-, vs', -, hrest⟩
      · rw [List.length_tail]
        omega
      · have hlast := (ih depth _ rest).2.1 vs' hrest
        have hnext := skip_ws_length (skip_ws more).tail
        rw [List.length_tail] at hnext
        omega
    · obtain ⟨key, value, hkey, v, more, hvalue, hend⟩ := (scan_object_eq_ok d).mp h
      have hfrom := scan_key_length d hkey
      have hmore := (ih depth value more).1 v hvalue
      have hskip := skip_ws_length more
      rcases hend with ⟨-, -, rfl⟩ | ⟨-, items', -, hrest⟩
      · rw [List.length_tail]
        omega
      · have hlast := (ih depth _ rest).2.2 items' hrest
        have hnext := skip_ws_length (skip_ws more).tail
        rw [List.length_tail] at hnext
        omega

/-! ## The bound on the recursion

With enough fuel the result does not depend on the fuel, so `read_value` can leave it out. -/

/-- Fuel beyond twice the length of the text makes no difference. -/
theorem scan_stable (fuel : ℕ) : ∀ (fuel' depth : ℕ) (s : Text),
    (2 * s.length + 1 ≤ fuel → 2 * s.length + 1 ≤ fuel' →
      scan_once d fuel depth s = scan_once d fuel' depth s) ∧
    (2 * s.length + 2 ≤ fuel → 2 * s.length + 2 ≤ fuel' →
      scan_array d fuel depth s = scan_array d fuel' depth s) ∧
    (2 * s.length + 2 ≤ fuel → 2 * s.length + 2 ≤ fuel' →
      scan_object d fuel depth s = scan_object d fuel' depth s) := by
  induction fuel with
  | zero =>
    exact fun fuel' depth s => ⟨fun h => (by omega), fun h => (by omega), fun h => (by omega)⟩
  | succ fuel ih =>
    intro fuel' depth s
    cases fuel' with
    | zero => exact ⟨fun _ h => (by omega), fun _ h => (by omega), fun _ h => (by omega)⟩
    | succ fuel' =>
      refine ⟨fun h h' => ?_, fun h h' => ?_, fun h h' => ?_⟩
      · cases s with
        | nil => rfl
        | cons c cs =>
          rw [List.length_cons] at h h'
          have hcs := skip_ws_length cs
          -- what follows a bracket is shorter than the text by that bracket
          have harray : ∀ depth, scan_array d fuel depth (skip_ws cs) =
              scan_array d fuel' depth (skip_ws cs) :=
            fun depth => (ih fuel' depth _).2.1 (by omega) (by omega)
          have hobject : ∀ depth, scan_object d fuel depth (skip_ws cs) =
              scan_object d fuel' depth (skip_ws cs) :=
            fun depth => (ih fuel' depth _).2.2 (by omega) (by omega)
          rw [scan_once, scan_once]
          simp only [harray, hobject]
      · rw [scan_array, scan_array, (ih fuel' depth s).1 (by omega) (by omega)]
        cases hvalue : scan_once d fuel' depth s with
        | error e => rfl
        | ok r =>
          -- the rest of the elements starts after the value and its comma
          have hmore := (scan_length d fuel' depth s r.2).1 r.1 hvalue
          have hnext := skip_ws_length (skip_ws r.2).tail
          have hskip := skip_ws_length r.2
          rw [List.length_tail] at hnext
          have hrest := (ih fuel' depth (skip_ws (skip_ws r.2).tail)).2.1 (by omega) (by omega)
          dsimp only [Except.bind]
          rw [hrest]
      · rw [scan_object, scan_object]
        -- the value of the first item starts after the key
        cases hkey : scan_key d s with
        | error e => rfl
        | ok key =>
          have hfrom := scan_key_length d (show scan_key d _ = .ok (key.1, key.2) from hkey)
          dsimp only [Except.bind]
          rw [(ih fuel' depth key.2).1 (by omega) (by omega)]
          cases hvalue : scan_once d fuel' depth key.2 with
          | error e => rfl
          | ok r =>
            have hmore := (scan_length d fuel' depth key.2 r.2).1 r.1 hvalue
            have hnext := skip_ws_length (skip_ws r.2).tail
            have hskip := skip_ws_length r.2
            rw [List.length_tail] at hnext
            have hrest := (ih fuel' depth (skip_ws (skip_ws r.2).tail)).2.2 (by omega) (by omega)
            dsimp only
            rw [hrest]

/-- Reading one value with all the fuel its text can use. -/
def read_value (depth : ℕ) (s : Text) : Except ε (Json × Text) :=
  scan_once d (2 * s.length + 2) depth s

theorem scan_once_stable {fuel depth : ℕ} {s : Text} (h : 2 * s.length + 1 ≤ fuel) :
    scan_once d fuel depth s = read_value d depth s :=
  (scan_stable d fuel _ depth s).1 h (Nat.le_succ _)

/-! ## Where the scanner stops for good

`Trips` follows the scanner through a text: what it reads before the place is read with success,
and at the place the exception comes. It speaks about texts and about reading a value, not about
fuel. -/

/-- An integer literal of more digits than `int()` takes: no fraction and no exponent makes it
a float. -/
def LongInteger (s : Text) : Prop :=
  ∃ negative digits rest, scan_integer s = some (negative, digits, rest) ∧
    (scan_fraction rest).1 = [] ∧ (scan_exponent (scan_fraction rest).2).1 = [] ∧
    int_max_str_digits < digits.length

/-- What the scanner is about to read. -/
inductive Place
  | value
  | elements
  | items

/-- The scanner comes to an integer of too many digits, or to an array or object beyond the
nesting that is left, and everything before that place it reads. -/
inductive Trips : Place → ℕ → Text → Prop
  | digits {depth : ℕ} {s : Text} : LongInteger s → Trips .value depth s
  | deep {c : Char} {cs : Text} : c = '[' ∨ c = '\x7b' → Trips .value 0 (c :: cs)
  | array {depth : ℕ} {cs : Text} :
      Trips .elements depth (skip_ws cs) → Trips .value (depth + 1) ('[' :: cs)
  | object {depth : ℕ} {cs : Text} :
      Trips .items depth (skip_ws cs) → Trips .value (depth + 1) ('\x7b' :: cs)
  | element {depth : ℕ} {s : Text} : Trips .value depth s → Trips .elements depth s
  | next_element {depth : ℕ} {s rest more : Text} {v : Json} :
      read_value d depth s = .ok (v, rest) → skip_ws rest = ',' :: more →
      Trips .elements depth (skip_ws more) → Trips .elements depth s
  | item {depth : ℕ} {s key value : Text} :
      scan_key d s = .ok (key, value) → Trips .value depth value → Trips .items depth s
  | next_item {depth : ℕ} {s key value rest more : Text} {v : Json} :
      scan_key d s = .ok (key, value) → read_value d depth value = .ok (v, rest) →
      skip_ws rest = ',' :: more → Trips .items depth (skip_ws more) → Trips .items depth s

end F2bguard.PyJson

namespace F2bguard.Server

open F2bguard.PyText F2bguard.PyJson
open F2bguard.Store (bind_eq_ok map_eq_ok)

/-- The exceptions `strict_json_loads` turns into or raises as a `ConfigError`. -/
def LoadError.caught : LoadError → Bool
  | .config_error _ => true
  | .value_error => false
  | .recursion_error => false

/-- An exception other than `ConfigError` ends the call. -/
def Escapes {α : Type} (x : Except LoadError α) : Prop := ∃ e, x = .error e ∧ e.caught = false

theorem not_escapes_ok {α : Type} (a : α) : ¬ Escapes (.ok a) := by
  rintro ⟨e, h, -⟩
  cases h

theorem not_escapes_config {α : Type} (message : Text) :
    ¬ @Escapes α (.error (.config_error message)) := by
  rintro ⟨e, h, hcaught⟩
  cases h
  cases hcaught

theorem escapes_bind {α β : Type} {x : Except LoadError α} {f : α → Except LoadError β} :
    Escapes (x.bind f) ↔ Escapes x ∨ ∃ a, x = .ok a ∧ Escapes (f a) := by
  cases x with
  | error e => simp [Except.bind, Escapes]
  | ok a => simp [Except.bind, Escapes]

theorem escapes_map {α β : Type} {x : Except LoadError α} {f : α → β} :
    Escapes (x.map f) ↔ Escapes x := by
  cases x with
  | error e => simp [Except.map, Escapes]
  | ok a => simp [Except.map, Escapes]

variable (floats : FloatText) (max_depth : ℕ)

theorem not_escapes_hook (pairs : List (Text × Json)) : ¬ Escapes (_unique_object pairs) := by
  unfold _unique_object
  split
  · exact not_escapes_config _
  · exact not_escapes_ok _

theorem not_escapes_scan_str (s : Text) : ¬ Escapes (scan_str (strict_decoder floats max_depth) s) := by
  unfold scan_str
  split
  · exact not_escapes_ok _
  · exact not_escapes_config _

theorem not_escapes_scan_key (s : Text) : ¬ Escapes (scan_key (strict_decoder floats max_depth) s) := by
  unfold scan_key
  split
  · rw [escapes_bind]
    rintro (h | ⟨a, -, h⟩)
    · exact not_escapes_scan_str floats max_depth _ h
    · split at h
      · exact not_escapes_ok _ h
      · exact not_escapes_config _ h
  · exact not_escapes_config _

theorem escapes_scan_number {s : Text} :
    Escapes (scan_number (strict_decoder floats max_depth) s) ↔ LongInteger s := by
  unfold scan_number
  split
  · rename_i hnone
    refine iff_of_false (not_escapes_config _) ?_
    rintro ⟨negative, digits, rest, hscan, -⟩
    rw [hnone] at hscan
    cases hscan
  · rename_i negative digits rest hscan
    have hlong : LongInteger s ↔ (scan_fraction rest).1 = [] ∧
        (scan_exponent (scan_fraction rest).2).1 = [] ∧ int_max_str_digits < digits.length := by
      constructor
      · rintro ⟨negative', digits', rest', hscan', h⟩
        rw [hscan] at hscan'
        cases hscan'
        exact h
      · exact fun h => ⟨negative, digits, rest, hscan, h⟩
    rw [hlong]
    dsimp only
    split
    · rename_i hint
      split
      · rename_i hdigits
        exact iff_of_true ⟨.value_error, rfl, rfl⟩ ⟨hint.1, hint.2, hdigits⟩
      · rename_i hdigits
        refine iff_of_false ?_ (fun h => hdigits h.2.2)
        split <;> exact not_escapes_ok _
    · rename_i hfloat
      exact iff_of_false (not_escapes_ok _) (fun h => hfloat ⟨h.1, h.2.1⟩)

/-- A text that starts with a literal of letters starts no number. -/
theorem not_longInteger_of_after {literal s rest : Text} (h : after literal s = some rest)
    (hnumber : ∀ more, scan_integer (literal ++ more) = none) : ¬ LongInteger s := by
  rintro ⟨negative, digits, rest', hscan, -⟩
  unfold after at h
  split at h
  · rename_i htake
    rw [← List.take_append_drop literal.length s, htake, hnumber] at hscan
    cases hscan
  · cases h

theorem escapes_scan_scalar {s : Text} :
    Escapes (scan_scalar (strict_decoder floats max_depth) s) ↔ LongInteger s := by
  have hconstant : ∀ (name more : Text), ¬ Escapes
      (((strict_decoder floats max_depth).parse_constant name).map (fun v => (v, more))) :=
    fun name more h => not_escapes_config _ (escapes_map.mp h)
  unfold scan_scalar
  split
  · exact iff_of_false (not_escapes_ok _)
      (not_longInteger_of_after ‹after "null".toList s = some _› (fun _ => rfl))
  · exact iff_of_false (not_escapes_ok _)
      (not_longInteger_of_after ‹after "true".toList s = some _› (fun _ => rfl))
  · exact iff_of_false (not_escapes_ok _)
      (not_longInteger_of_after ‹after "false".toList s = some _› (fun _ => rfl))
  · exact iff_of_false (hconstant _ _)
      (not_longInteger_of_after ‹after "NaN".toList s = some _› (fun _ => rfl))
  · exact iff_of_false (hconstant _ _)
      (not_longInteger_of_after ‹after "Infinity".toList s = some _› (fun _ => rfl))
  · exact iff_of_false (hconstant _ _)
      (not_longInteger_of_after ‹after "-Infinity".toList s = some _› (fun _ => rfl))
  · exact escapes_scan_number floats max_depth

theorem longInteger_head {c : Char} {cs : Text} (h : LongInteger (c :: cs)) :
    c = '-' ∨ is_digit c = true := by
  obtain ⟨negative, digits, rest, hscan, -⟩ := h
  by_cases hminus : c = '-'
  · exact .inl hminus
  refine .inr ?_
  unfold scan_integer at hscan
  split at hscan
  rename_i negative' ds hsign
  split at hsign
  · rename_i heq
    exact absurd (List.cons.inj heq).1 hminus
  · cases hsign
    split at hscan
    · rename_i heq
      rw [(List.cons.inj heq).1]
      decide
    · rename_i heq
      obtain ⟨rfl, -⟩ := List.cons.inj heq
      split at hscan
      · assumption
      · cases hscan
    · cases hscan

/-- What comes to an exception comes to one of the two places. The induction is on the fuel, which
is enough for the text, so that what was read before the place is what `read_value` reads. -/
theorem trips_of_escapes (fuel : ℕ) : ∀ (depth : ℕ) (s : Text),
    (2 * s.length + 1 ≤ fuel → Escapes (scan_once (strict_decoder floats max_depth) fuel depth s) →
      Trips (strict_decoder floats max_depth) .value depth s) ∧
    (2 * s.length + 2 ≤ fuel → Escapes (scan_array (strict_decoder floats max_depth) fuel depth s) →
      Trips (strict_decoder floats max_depth) .elements depth s) ∧
    (2 * s.length + 2 ≤ fuel → Escapes (scan_object (strict_decoder floats max_depth) fuel depth s) →
      Trips (strict_decoder floats max_depth) .items depth s) := by
  induction fuel with
  | zero => exact fun depth s => ⟨fun h => (by omega), fun h => (by omega), fun h => (by omega)⟩
  | succ fuel ih =>
    intro depth s
    refine ⟨fun hfuel h => ?_, fun hfuel h => ?_, fun hfuel h => ?_⟩
    · cases s with
      | nil => exact absurd h (not_escapes_config _)
      | cons c cs =>
        rw [List.length_cons] at hfuel
        have hcs := skip_ws_length cs
        -- a string does not escape; a bracket is one level deeper
        rw [scan_once] at h
        split at h
        · exact absurd (escapes_map.mp h) (not_escapes_scan_str floats max_depth cs)
        split at h
        · rename_i _ hbracket
          cases depth with
          -- the nesting is used up
          | zero => exact .deep (.inl hbracket)
          | succ depth =>
            subst hbracket
            dsimp only [descend] at h
            split at h
            · exact absurd h (not_escapes_ok _)
            · exact .array ((ih depth (skip_ws cs)).2.1 (by omega) (escapes_map.mp h))
        split at h
        · rename_i _ _ hbrace
          cases depth with
          | zero => exact .deep (.inr hbrace)
          | succ depth =>
            subst hbrace
            dsimp only [descend] at h
            split at h
            · exact absurd (escapes_map.mp h) (not_escapes_hook [])
            · rcases escapes_bind.mp h with h | ⟨r, -, h⟩
              · exact .object ((ih depth (skip_ws cs)).2.2 (by omega) h)
              · exact absurd (escapes_map.mp h) (not_escapes_hook r.1)
        · -- what is left is a number
          exact .digits ((escapes_scan_scalar floats max_depth).mp h)
    · rw [scan_array] at h
      rcases escapes_bind.mp h with h | ⟨⟨v, rest⟩, hvalue, h⟩
      · exact .element ((ih depth s).1 (by omega) h)
      -- the first element was read, so it is what `read_value` reads
      have hrest := (scan_length _ fuel depth s rest).1 v hvalue
      rw [scan_once_stable _ (by omega)] at hvalue
      dsimp only at h
      split at h
      · exact absurd h (not_escapes_ok _)
      split at h
      · rename_i _ hcomma
        obtain ⟨more, hmore⟩ := List.head?_eq_some_iff.mp hcomma
        have hskip := skip_ws_length rest
        have hnext := skip_ws_length more
        rw [hmore, List.length_cons] at hskip
        rw [hmore, List.tail_cons] at h
        exact .next_element hvalue hmore
          ((ih depth (skip_ws more)).2.1 (by omega) (escapes_map.mp h))
      · exact absurd h (not_escapes_config _)
    · rw [scan_object] at h
      rcases escapes_bind.mp h with h | ⟨⟨key, value⟩, hkey, h⟩
      · exact absurd h (not_escapes_scan_key floats max_depth s)
      have hfrom := scan_key_length _ hkey
      rcases escapes_bind.mp h with h | ⟨⟨v, rest⟩, hvalue, h⟩
      · exact .item hkey ((ih depth value).1 (by omega) h)
      have hrest := (scan_length _ fuel depth value rest).1 v hvalue
      dsimp only at hvalue
      rw [scan_once_stable _ (by omega)] at hvalue
      dsimp only at h
      split at h
      · exact absurd h (not_escapes_ok _)
      split at h
      · rename_i _ hcomma
        obtain ⟨more, hmore⟩ := List.head?_eq_some_iff.mp hcomma
        have hskip := skip_ws_length rest
        have hnext := skip_ws_length more
        rw [hmore, List.length_cons] at hskip
        rw [hmore, List.tail_cons] at h
        exact .next_item hkey hvalue hmore
          ((ih depth (skip_ws more)).2.2 (by omega) (escapes_map.mp h))
      · exact absurd h (not_escapes_config _)

/-- The part of the scanner that reads at a place. -/
def EscapesAt (d : Decoder LoadError) (depth : ℕ) (s : Text) : Place → Prop
  | .value => Escapes (read_value d depth s)
  | .elements => ∀ fuel, 2 * s.length + 2 ≤ fuel → Escapes (scan_array d fuel depth s)
  | .items => ∀ fuel, 2 * s.length + 2 ≤ fuel → Escapes (scan_object d fuel depth s)

theorem read_value_cons {ε : Type} (d : Decoder ε) {depth : ℕ} {c : Char} {cs : Text}
    (hquote : c ≠ '"') (hbracket : c ≠ '[') (hbrace : c ≠ '\x7b') :
    read_value d depth (c :: cs) = scan_scalar d (c :: cs) := by
  rw [read_value, scan_once, if_neg hquote, if_neg hbracket, if_neg hbrace]

theorem scan_scalar_close {ε : Type} (d : Decoder ε) (cs : Text) :
    scan_scalar d (']' :: cs) = .error d.decode_error := rfl

/-- No element starts with a closing bracket. -/
theorem not_escapes_elements_close (depth : ℕ) (cs : Text) :
    ¬ EscapesAt (strict_decoder floats max_depth) depth (']' :: cs) .elements := by
  intro h
  have hvalue : scan_once (strict_decoder floats max_depth) (2 * (']' :: cs).length + 1) depth
      (']' :: cs) = .error (strict_decoder floats max_depth).decode_error := by
    rw [scan_once_stable _ (Nat.le_refl _),
      read_value_cons _ (by decide) (by decide) (by decide), scan_scalar_close]
  have hescape := h _ (Nat.le_refl _)
  rw [scan_array, hvalue] at hescape
  exact not_escapes_config _ hescape

/-- No key starts with a closing brace. -/
theorem not_escapes_items_close (depth : ℕ) (cs : Text) :
    ¬ EscapesAt (strict_decoder floats max_depth) depth ('\x7d' :: cs) .items := by
  intro h
  have hescape := h _ (Nat.le_refl _)
  have hkey : scan_key (strict_decoder floats max_depth) ('\x7d' :: cs) =
      .error (strict_decoder floats max_depth).decode_error := rfl
  rw [scan_object, hkey] at hescape
  exact not_escapes_config _ hescape

/-- The scanner comes to the place that trips it: what is before it is read. -/
theorem escapes_of_trips {place : Place} {depth : ℕ} {s : Text}
    (h : Trips (strict_decoder floats max_depth) place depth s) :
    EscapesAt (strict_decoder floats max_depth) depth s place := by
  induction h with
  | @digits depth s hlong =>
    cases s with
    | nil =>
      obtain ⟨negative, digits, rest, hscan, -⟩ := hlong
      cases hscan
    | cons c cs =>
      -- an integer starts with a digit or a minus, so it is read as a scalar
      have hhead := longInteger_head hlong
      have hne : ∀ q, q ≠ '-' → is_digit q = false → c ≠ q := by
        rintro q hminus hdigit rfl
        rcases hhead with h | h
        · exact hminus h
        · rw [hdigit] at h
          cases h
      show Escapes (read_value _ depth (c :: cs))
      rw [read_value_cons _ (hne _ (by decide) (by decide)) (hne _ (by decide) (by decide))
        (hne _ (by decide) (by decide))]
      exact (escapes_scan_scalar floats max_depth).mpr hlong
  | @deep c cs hc =>
    refine ⟨.recursion_error, ?_, rfl⟩
    rcases hc with rfl | rfl
    · rw [read_value, scan_once, if_neg (by decide), if_pos rfl]
      rfl
    · rw [read_value, scan_once, if_neg (by decide), if_neg (by decide), if_pos rfl]
      rfl
  | @array depth cs _ ih =>
    have hcs := skip_ws_length cs
    have hescape := ih (2 * ('[' :: cs).length + 1) (by rw [List.length_cons]; omega)
    show Escapes (read_value _ (depth + 1) ('[' :: cs))
    rw [read_value, scan_once, if_neg (by decide), if_pos rfl, descend]
    split
    · rename_i hclose
      obtain ⟨more, hmore⟩ := List.head?_eq_some_iff.mp hclose
      rw [hmore] at ih
      exact absurd ih (not_escapes_elements_close floats max_depth depth more)
    · exact escapes_map.mpr hescape
  | @object depth cs _ ih =>
    have hcs := skip_ws_length cs
    have hescape := ih (2 * ('\x7b' :: cs).length + 1) (by rw [List.length_cons]; omega)
    show Escapes (read_value _ (depth + 1) ('\x7b' :: cs))
    rw [read_value, scan_once, if_neg (by decide), if_neg (by decide), if_pos rfl, descend]
    split
    · rename_i hclose
      obtain ⟨more, hmore⟩ := List.head?_eq_some_iff.mp hclose
      rw [hmore] at ih
      exact absurd ih (not_escapes_items_close floats max_depth depth more)
    · exact escapes_bind.mpr (.inl hescape)
  | @element depth s _ ih =>
    intro fuel hfuel
    obtain ⟨fuel, rfl⟩ : ∃ k, fuel = k + 1 := ⟨fuel - 1, by omega⟩
    rw [scan_array, scan_once_stable _ (by omega)]
    exact escapes_bind.mpr (.inl ih)
  | @next_element depth s rest more v hvalue hcomma _ ih =>
    intro fuel hfuel
    obtain ⟨fuel, rfl⟩ : ∃ k, fuel = k + 1 := ⟨fuel - 1, by omega⟩
    -- the elements before the place are read with any fuel that is enough
    have hrest := (scan_length _ _ depth s rest).1 v hvalue
    have hskip := skip_ws_length rest
    have hnext := skip_ws_length more
    rw [hcomma, List.length_cons] at hskip
    rw [scan_array, scan_once_stable _ (by omega)]
    refine escapes_bind.mpr (.inr ⟨_, hvalue, ?_⟩)
    dsimp only
    rw [hcomma, List.head?_cons, if_neg (by decide), if_pos rfl, List.tail_cons]
    exact escapes_map.mpr (ih fuel (by omega))
  | @item depth s key value hkey _ ih =>
    intro fuel hfuel
    obtain ⟨fuel, rfl⟩ : ∃ k, fuel = k + 1 := ⟨fuel - 1, by omega⟩
    have hfrom := scan_key_length _ hkey
    rw [scan_object]
    refine escapes_bind.mpr (.inr ⟨_, hkey, escapes_bind.mpr (.inl ?_)⟩)
    dsimp only
    rw [scan_once_stable _ (by omega)]
    exact ih
  | @next_item depth s key value rest more v hkey hvalue hcomma _ ih =>
    intro fuel hfuel
    obtain ⟨fuel, rfl⟩ : ∃ k, fuel = k + 1 := ⟨fuel - 1, by omega⟩
    have hfrom := scan_key_length _ hkey
    have hrest := (scan_length _ _ depth value rest).1 v hvalue
    have hskip := skip_ws_length rest
    have hnext := skip_ws_length more
    rw [hcomma, List.length_cons] at hskip
    rw [scan_object]
    refine escapes_bind.mpr (.inr ⟨_, hkey, escapes_bind.mpr (.inr ⟨(v, rest), ?_, ?_⟩)⟩)
    · dsimp only
      rw [scan_once_stable _ (by omega)]
      exact hvalue
    · dsimp only
      rw [hcomma, List.head?_cons, if_neg (by decide), if_pos rfl, List.tail_cons]
      exact escapes_map.mpr (ih fuel (by omega))

/-- **When something else than a `ConfigError` is raised.** `strict_json_loads` raises something
else than a `ConfigError` when the scanner trips, and only then. Whether the text would have been
bad syntax further on makes no difference: the scanner does not come that far. -/
theorem escapes_loads_iff (text : Text) :
    Escapes (loads (strict_decoder floats max_depth) text) ↔
      Trips (strict_decoder floats max_depth) .value max_depth (skip_ws text) := by
  have hskip := skip_ws_length text
  have hloads : Escapes (loads (strict_decoder floats max_depth) text) ↔
      Escapes (read_value (strict_decoder floats max_depth) max_depth (skip_ws text)) := by
    rw [loads, scan_once_stable _ (by omega)]
    have hdepth : (strict_decoder floats max_depth).max_depth = max_depth := rfl
    rw [hdepth]
    cases read_value (strict_decoder floats max_depth) max_depth (skip_ws text) with
    | error e => simp only [Escapes, Except.error.injEq]
    | ok r =>
      refine iff_of_false (fun h => ?_) (not_escapes_ok _)
      dsimp only at h
      split at h
      · exact not_escapes_ok _ h
      · exact not_escapes_config _ h
  rw [hloads]
  constructor
  · intro h
    exact (trips_of_escapes floats max_depth _ max_depth (skip_ws text)).1 (Nat.le_succ _) h
  · exact fun h => escapes_of_trips floats max_depth h

end F2bguard.Server
