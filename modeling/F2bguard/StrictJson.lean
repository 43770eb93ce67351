/-
What `strict_json_loads` (`config.py`) rejects.

The function is to reject repeated keys and numbers that are not finite. Of the decoder's hooks it
uses the one for objects, which sees every object, and the one for constants, which sees `NaN`,
`Infinity` and `-Infinity`; a literal such as `1e400` goes to `float`, which makes it infinite, and
through. Two exceptions are not caught either (`Scanner`). Apart from these texts the function does
what it is to do (`strict_json_loads_iff`).
-/
import F2bguard.Scanner
import F2bguard.Datetime

set_option autoImplicit false

namespace F2bguard.PyJson

open F2bguard.PyText

/-! ## Values within a value

A property of a value and of everything inside it, by the structure of the value. -/

mutual

/-- `p` holds of a value and of all values within it. -/
def Everywhere (p : Json → Prop) : Json → Prop
  | .arr xs => p (.arr xs) ∧ EverywhereList p xs
  | .obj items => p (.obj items) ∧ EverywhereItems p items
  | .null => p .null
  | .bool b => p (.bool b)
  | .int n => p (.int n)
  | .float x => p (.float x)
  | .str s => p (.str s)

def EverywhereList (p : Json → Prop) : List Json → Prop
  | [] => True
  | x :: xs => Everywhere p x ∧ EverywhereList p xs

def EverywhereItems (p : Json → Prop) : List (Text × Json) → Prop
  | [] => True
  | (_, v) :: items => Everywhere p v ∧ EverywhereItems p items

end

/-- An object repeats no key. -/
def UniqueKeys : Json → Prop
  | .obj items => (items.map Prod.fst).Nodup
  | _ => True

/-- A number is finite. -/
def FiniteNumber : Json → Prop
  | .float (.finite _) => True
  | .float _ => False
  | _ => True

/-- A value that is neither an array nor an object. -/
def Scalar : Json → Prop
  | .arr _ => False
  | .obj _ => False
  | _ => True

theorem Scalar.uniqueKeys {v : Json} (h : Scalar v) : Everywhere UniqueKeys v := by
  cases v with
  | arr xs => exact absurd h id
  | obj items => exact absurd h id
  | _ => exact trivial

end F2bguard.PyJson

namespace F2bguard.Server

open F2bguard.PyText F2bguard.PyJson
open F2bguard.Store (bind_eq_ok map_eq_ok)

/-! ## The hook for objects

The scanner with the hook and without it go through a text in step. They part at the first object
that repeats a key: the hook raises there. -/

/-- The decoder without the hook for objects: the items stay as they are in the text. -/
def items_decoder (floats : FloatText) (max_depth : ℕ) : Decoder LoadError :=
  { strict_decoder floats max_depth with object_pairs_hook := fun pairs => .ok (.obj pairs) }

theorem nodup_of_first_repeated {seen keys : List Text} (h : first_repeated seen keys = none) :
    keys.Nodup ∧ ∀ k ∈ keys, k ∉ seen := by
  induction keys generalizing seen with
  | nil => exact ⟨List.nodup_nil, fun _ h => (by cases h)⟩
  | cons key keys ih =>
    rw [first_repeated] at h
    split at h
    · cases h
    · rename_i hnew
      obtain ⟨hnodup, hunseen⟩ := ih h
      refine ⟨List.nodup_cons.mpr ⟨fun hmem => hunseen key hmem List.mem_cons_self, hnodup⟩,
        List.forall_mem_cons.mpr ⟨hnew, fun k hk hmem => hunseen k hk (List.mem_cons_of_mem key hmem)⟩⟩

/-- The hook keeps an object whose keys are distinct, and raises for another one. -/
theorem hook_eq_ok {floats : FloatText} {max_depth : ℕ} {pairs : List (Text × Json)} {v : Json} :
    (strict_decoder floats max_depth).object_pairs_hook pairs = .ok v ↔
      v = .obj pairs ∧ (pairs.map Prod.fst).Nodup := by
  show _unique_object pairs = .ok v ↔ _
  unfold _unique_object
  constructor
  · intro h
    split at h
    · cases h
    · rename_i hnone
      cases h
      exact ⟨rfl, (nodup_of_first_repeated hnone).1⟩
  · rintro ⟨rfl, hnodup⟩
    rw [first_repeated_eq_none hnodup (fun k _ => List.not_mem_nil)]

variable (floats : FloatText) (max_depth : ℕ)

theorem scan_scalar_scalar {s rest : Text} {v : Json}
    (h : scan_scalar (strict_decoder floats max_depth) s = .ok (v, rest)) : Scalar v := by
  unfold scan_scalar at h
  split at h
  · cases h
    exact trivial
  · cases h
    exact trivial
  · cases h
    exact trivial
  · cases h
  · cases h
  · cases h
  · unfold scan_number at h
    split at h
    · cases h
    dsimp only at h
    split at h
    · split at h
      · cases h
      split at h
      · cases h
        exact trivial
      · cases h
        exact trivial
    · cases h
      exact trivial

/-- With the hook the scanner reads what it reads without it, as long as no object repeats a key.
The induction is on the fuel, over a value, the elements and the items together. -/
theorem scan_strict_iff (fuel : ℕ) : ∀ (depth : ℕ) (s rest : Text),
    (∀ v, scan_once (strict_decoder floats max_depth) fuel depth s = .ok (v, rest) ↔
      scan_once (items_decoder floats max_depth) fuel depth s = .ok (v, rest) ∧
        Everywhere UniqueKeys v) ∧
    (∀ vs, scan_array (strict_decoder floats max_depth) fuel depth s = .ok (vs, rest) ↔
      scan_array (items_decoder floats max_depth) fuel depth s = .ok (vs, rest) ∧
        EverywhereList UniqueKeys vs) ∧
    (∀ items, scan_object (strict_decoder floats max_depth) fuel depth s = .ok (items, rest) ↔
      scan_object (items_decoder floats max_depth) fuel depth s = .ok (items, rest) ∧
        EverywhereItems UniqueKeys items) := by
  induction fuel with
  | zero =>
    exact fun depth s rest => ⟨fun v => ⟨fun h => (by cases h), fun h => (by cases h.1)⟩,
      fun vs => ⟨fun h => (by cases h), fun h => (by cases h.1)⟩,
      fun items => ⟨fun h => (by cases h), fun h => (by cases h.1)⟩⟩
  | succ fuel ih =>
    intro depth s rest
    refine ⟨fun v => ?_, fun vs => ?_, fun items => ?_⟩
    · -- a value: the hook is called for objects only
      cases s with
      | nil => exact ⟨fun h => (by cases h), fun h => (by cases h.1)⟩
      | cons c cs =>
        rw [scan_once_eq_ok, scan_once_eq_ok]
        constructor
        · rintro (⟨hc, t, hstr, rfl⟩ | ⟨hc, inner, hdepth, h⟩ | ⟨hc, inner, hdepth, h⟩ |
            ⟨hquote, hbracket, hbrace, hscalar⟩)
          · exact ⟨.inl ⟨hc, t, hstr, rfl⟩, trivial⟩
          · rcases h with ⟨hclose, rfl, hrest⟩ | ⟨hopen, vs, harray, rfl⟩
            · exact ⟨.inr (.inl ⟨hc, inner, hdepth, .inl ⟨hclose, rfl, hrest⟩⟩), trivial, trivial⟩
            · obtain ⟨harray, hunique⟩ := ((ih inner _ _).2.1 vs).mp harray
              exact ⟨.inr (.inl ⟨hc, inner, hdepth, .inr ⟨hopen, vs, harray, rfl⟩⟩), trivial, hunique⟩
          · -- the hook has seen the items of this object
            rcases h with ⟨hclose, hhook, hrest⟩ | ⟨hopen, items, hobject, hhook⟩
            · obtain ⟨rfl, hnodup⟩ := hook_eq_ok.mp hhook
              exact ⟨.inr (.inr (.inl ⟨hc, inner, hdepth, .inl ⟨hclose, rfl, hrest⟩⟩)), hnodup, trivial⟩
            · obtain ⟨rfl, hnodup⟩ := hook_eq_ok.mp hhook
              obtain ⟨hobject, hunique⟩ := ((ih inner _ _).2.2 items).mp hobject
              exact ⟨.inr (.inr (.inl ⟨hc, inner, hdepth, .inr ⟨hopen, items, hobject, rfl⟩⟩)),
                hnodup, hunique⟩
          · exact ⟨.inr (.inr (.inr ⟨hquote, hbracket, hbrace, hscalar⟩)),
              (scan_scalar_scalar floats max_depth hscalar).uniqueKeys⟩
        · rintro ⟨⟨hc, t, hstr, rfl⟩ | ⟨hc, inner, hdepth, h⟩ | ⟨hc, inner, hdepth, h⟩ |
            ⟨hquote, hbracket, hbrace, hscalar⟩, hunique⟩
          · exact .inl ⟨hc, t, hstr, rfl⟩
          · rcases h with ⟨hclose, rfl, hrest⟩ | ⟨hopen, vs, harray, rfl⟩
            · exact .inr (.inl ⟨hc, inner, hdepth, .inl ⟨hclose, rfl, hrest⟩⟩)
            · have hstrict := ((ih inner _ _).2.1 vs).mpr ⟨harray, hunique.2⟩
              exact .inr (.inl ⟨hc, inner, hdepth, .inr ⟨hopen, vs, hstrict, rfl⟩⟩)
          · rcases h with ⟨hclose, hhook, hrest⟩ | ⟨hopen, items, hobject, hhook⟩
            · cases hhook
              exact .inr (.inr (.inl ⟨hc, inner, hdepth,
                .inl ⟨hclose, hook_eq_ok.mpr ⟨rfl, hunique.1⟩, hrest⟩⟩))
            · cases hhook
              have hstrict := ((ih inner _ _).2.2 items).mpr ⟨hobject, hunique.2⟩
              exact .inr (.inr (.inl ⟨hc, inner, hdepth,
                .inr ⟨hopen, items, hstrict, hook_eq_ok.mpr ⟨rfl, hunique.1⟩⟩⟩))
          · exact .inr (.inr (.inr ⟨hquote, hbracket, hbrace, hscalar⟩))
    · -- the elements, one value and the rest
      rw [scan_array_eq_ok, scan_array_eq_ok]
      constructor
      · rintro ⟨v, more, hvalue, hend⟩
        obtain ⟨hvalue, hunique⟩ := ((ih depth s more).1 v).mp hvalue
        rcases hend with ⟨hclose, rfl, hrest⟩ | ⟨hcomma, vs', rfl, harray⟩
        · exact ⟨⟨v, more, hvalue, .inl ⟨hclose, rfl, hrest⟩⟩, hunique, trivial⟩
        · obtain ⟨harray, huniques⟩ := ((ih depth _ rest).2.1 vs').mp harray
          exact ⟨⟨v, more, hvalue, .inr ⟨hcomma, vs', rfl, harray⟩⟩, hunique, huniques⟩
      · rintro ⟨⟨v, more, hvalue, hend⟩, huniques⟩
        rcases hend with ⟨hclose, rfl, hrest⟩ | ⟨hcomma, vs', rfl, harray⟩
        · exact ⟨v, more, ((ih depth s more).1 v).mpr ⟨hvalue, huniques.1⟩,
            .inl ⟨hclose, rfl, hrest⟩⟩
        · exact ⟨v, more, ((ih depth s more).1 v).mpr ⟨hvalue, huniques.1⟩,
            .inr ⟨hcomma, vs', rfl, ((ih depth _ rest).2.1 vs').mpr ⟨harray, huniques.2⟩⟩⟩
    · -- the items, a key before each value
      rw [scan_object_eq_ok, scan_object_eq_ok]
      constructor
      · rintro ⟨key, value, hkey, v, more, hvalue, hend⟩
        obtain ⟨hvalue, hunique⟩ := ((ih depth value more).1 v).mp hvalue
        rcases hend with ⟨hclose, rfl, hrest⟩ | ⟨hcomma, items', rfl, hobject⟩
        · exact ⟨⟨key, value, hkey, v, more, hvalue, .inl ⟨hclose, rfl, hrest⟩⟩, hunique, trivial⟩
        · obtain ⟨hobject, huniques⟩ := ((ih depth _ rest).2.2 items').mp hobject
          exact ⟨⟨key, value, hkey, v, more, hvalue, .inr ⟨hcomma, items', rfl, hobject⟩⟩, hunique,
            huniques⟩
      · rintro ⟨⟨key, value, hkey, v, more, hvalue, hend⟩, huniques⟩
        rcases hend with ⟨hclose, rfl, hrest⟩ | ⟨hcomma, items', rfl, hobject⟩
        · exact ⟨key, value, hkey, v, more, ((ih depth value more).1 v).mpr ⟨hvalue, huniques.1⟩,
            .inl ⟨hclose, rfl, hrest⟩⟩
        · exact ⟨key, value, hkey, v, more, ((ih depth value more).1 v).mpr ⟨hvalue, huniques.1⟩,
            .inr ⟨hcomma, items', rfl, ((ih depth _ rest).2.2 items').mpr ⟨hobject, huniques.2⟩⟩⟩

/-- What `strict_json_loads` returns is what the text says, with distinct keys. -/
theorem loads_strict_iff {text : Text} {v : Json} :
    loads (strict_decoder floats max_depth) text = .ok v ↔
      loads (items_decoder floats max_depth) text = .ok v ∧ Everywhere UniqueKeys v := by
  have hscan := fun v rest => (scan_strict_iff floats max_depth (2 * text.length + 2) max_depth
    (skip_ws text) rest).1 v
  have hread : ∀ {d : Decoder LoadError}, loads d text = .ok v ↔
      ∃ rest, scan_once d (2 * text.length + 2) d.max_depth (skip_ws text) = .ok (v, rest) ∧
        skip_ws rest = [] := by
    intro d
    unfold loads
    cases scan_once d (2 * text.length + 2) d.max_depth (skip_ws text) with
    | error e => exact ⟨fun h => (by cases h), fun ⟨_, h, _⟩ => (by cases h)⟩
    | ok r =>
      dsimp only
      constructor
      · intro h
        split at h
        · rename_i hend
          cases h
          exact ⟨r.2, rfl, hend⟩
        · cases h
      · rintro ⟨rest, h, hend⟩
        cases h
        rw [if_pos hend]
  rw [hread, hread]
  constructor
  · rintro ⟨rest, hvalue, hend⟩
    obtain ⟨hvalue, hunique⟩ := (hscan v rest).mp hvalue
    exact ⟨⟨rest, hvalue, hend⟩, hunique⟩
  · rintro ⟨⟨rest, hvalue, hend⟩, hunique⟩
    exact ⟨rest, (hscan v rest).mpr ⟨hvalue, hunique⟩, hend⟩

/-! ## What is rejected

Both sides of the contract: what is returned has distinct keys and finite numbers, and everything
else is rejected with the exception that callers expect. -/

/-- The text is rejected with a `ConfigError`, or it repeats no key in any of its objects, its
numbers are finite, and it is returned. -/
def Strict (text : Text) : Prop :=
  (∃ v, loads (strict_decoder floats max_depth) text = .ok v ∧
    loads (items_decoder floats max_depth) text = .ok v ∧ Everywhere UniqueKeys v ∧
      Everywhere FiniteNumber v) ∨
    ∃ message, loads (strict_decoder floats max_depth) text = .error (.config_error message)

/-- The text is JSON with distinct keys and without constants, but `float` takes a number literal
of it to infinity. -/
def Infinite (text : Text) : Prop :=
  ∃ v, loads (items_decoder floats max_depth) text = .ok v ∧ Everywhere UniqueKeys v ∧
    ¬ Everywhere FiniteNumber v

/-- **When the function does what it is to do.** Exactly when the scanner comes neither to an
integer of too many digits nor to the end of the recursion, and no number of an acceptable text is
infinite. -/
theorem strict_json_loads_iff (text : Text) : Strict floats max_depth text ↔
    ¬ Trips (strict_decoder floats max_depth) .value max_depth (skip_ws text) ∧
      ¬ Infinite floats max_depth text := by
  rw [← escapes_loads_iff]
  constructor
  · rintro (⟨v, hstrict, hitems, -, hfinite⟩ | ⟨message, hstrict⟩)
    · rw [hstrict]
      refine ⟨not_escapes_ok v, ?_⟩
      rintro ⟨w, hw, -, hinfinite⟩
      rw [hitems] at hw
      cases hw
      exact hinfinite hfinite
    · rw [hstrict]
      refine ⟨not_escapes_config message, ?_⟩
      rintro ⟨w, hw, hunique, -⟩
      rw [(loads_strict_iff floats max_depth).mpr ⟨hw, hunique⟩] at hstrict
      cases hstrict
  · rintro ⟨hcaught, hfinite⟩
    cases hstrict : loads (strict_decoder floats max_depth) text with
    | error e =>
      rw [hstrict] at hcaught
      cases e with
      | config_error message => exact .inr ⟨message, hstrict⟩
      | value_error => exact absurd ⟨_, rfl, rfl⟩ hcaught
      | recursion_error => exact absurd ⟨_, rfl, rfl⟩ hcaught
    | ok v =>
      obtain ⟨hitems, hunique⟩ := (loads_strict_iff floats max_depth).mp hstrict
      refine .inl ⟨v, hstrict, hitems, hunique, ?_⟩
      by_contra hinfinite
      exact hfinite ⟨v, hitems, hunique, hinfinite⟩

/-! ## `float`

What `float` makes of a literal, for the run below. The general result leaves it open. -/

/-- The number a float literal stands for. -/
def literal_value (literal : Text) : ℚ :=
  match scan_integer literal with
  | none => 0
  | some (negative, digits, rest) =>
      let (frac, rest) := scan_fraction rest
      let magnitude : ℚ := (of_dec (digits ++ frac.tail) : ℚ) / (10 ^ (frac.length - 1) : ℕ)
      let value := match (scan_exponent rest).1.tail with
        | '-' :: exponent => magnitude / (10 ^ of_dec exponent : ℕ)
        | '+' :: exponent => magnitude * (10 ^ of_dec exponent : ℕ)
        | exponent => magnitude * (10 ^ of_dec exponent : ℕ)
      if negative then -value else value

/-- `float(literal)`: from half a unit above the largest double on it is infinite. -/
def float_of_literal (literal : Text) : PyFloat :=
  let value := literal_value literal
  if 2 ^ 1024 - 2 ^ 970 ≤ |value| then .inf (value < 0) else .finite (Datetime.to_double value)

def sample_floats : FloatText := ⟨fun _ => [], float_of_literal⟩

/-- `1e400` is returned as infinity. -/
theorem large_literal_returned :
    loads (strict_decoder sample_floats 900) "1e400".toList = .ok (.float (.inf false)) ∧
      ¬ Strict sample_floats 900 "1e400".toList := by
  have hvalue : float_of_literal "1e400".toList = .inf false := by decide +kernel
  have hstrict : loads (strict_decoder sample_floats 900) "1e400".toList =
      .ok (.float (float_of_literal "1e400".toList)) := rfl
  rw [hvalue] at hstrict
  refine ⟨hstrict, ?_⟩
  rintro (⟨v, h, -, -, hfinite⟩ | ⟨message, h⟩)
  · rw [hstrict] at h
    cases h
    exact hfinite
  · rw [hstrict] at h
    cases h

end F2bguard.Server
