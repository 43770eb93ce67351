/-
The whitelist file and its two readers.

The server reads the file as bytes and decodes them (`server.parse_whitelist`), the helper
reads it as a text stream, which also translates the ends of its lines
(`pf_helper.secure_read` and `parse_whitelist`). Both go through the lines with the same
loop, and they find the same networks in the same file (`readers_agree`). What the file
system does comes in as the bytes of the file, or as the reason why there are none.
-/
import F2bguard.Networks

set_option autoImplicit false

namespace F2bguard.Whitelist

open F2bguard.PyText F2bguard.Ipaddress F2bguard.Networks

/-! ## The loop over the lines

The two readers were written apart and do the same with a line. They differ in the exception and
its message, so the loop takes these as an argument. -/

/-- The exceptions of a reader for the entries it does not take. -/
structure EntryErrors (ε : Type) where
  scoped_address : ε
  invalid : ε
  too_many : ε

/-- `MAX_WHITELIST_ENTRIES` of the server and `MAX_ADDRESSES` of the helper. -/
def MAX_WHITELIST_ENTRIES : ℕ := 100000

/-- The loop, with the networks found so far. Empty lines and comments are skipped; a scope id is
refused before the library sees it; a network may be written with host bits. The limit is on the
entries and is checked after each. -/
def parse_lines {ε : Type} (errors : EntryErrors ε) :
    List IPNetwork → List Text → Except ε (List IPNetwork)
  | networks, [] => .ok networks
  | networks, line :: lines =>
      let value := strip line
      if value = [] ∨ value.head? = some '#' then parse_lines errors networks lines
      else if '%' ∈ value then .error errors.scoped_address
      else
        match ip_network false value with
        | none => .error errors.invalid
        | some network =>
            if MAX_WHITELIST_ENTRIES < (networks ++ [network]).length then .error errors.too_many
            else parse_lines errors (networks ++ [network]) lines

/-! ## The server's reader

It decodes the whole file as ASCII and splits it into lines as `str.splitlines` does. -/

/-- `EnforcementError(message)`. It ends the enforcement, and the tables stay as they are. -/
structure EnforcementError where
  message : Text
  deriving DecidableEq

def server_errors : EntryErrors EnforcementError where
  scoped_address := ⟨"whitelist contains a scoped address".toList⟩
  invalid := ⟨"whitelist contains an invalid entry".toList⟩
  too_many := ⟨"whitelist contains too many entries".toList⟩

/-- The bytes of the file, each as the character with its number, are ASCII. -/
def is_ascii (data : Text) : Bool := data.all (fun c => c.toNat < 128)

/-- `server.parse_whitelist` -/
def parse_whitelist (data : Text) : Except EnforcementError (List IPNetwork) :=
  if is_ascii data then parse_lines server_errors [] (splitlines data)
  else .error ⟨"whitelist must be ASCII".toList⟩

/-! ## The helper's reader

It opens the file as a text stream, which makes one line feed of each end of a line before the
text is split. -/

/-- What leaves the helper's code: `HelperError(message)`, or an exception that `handle` does
not name in its answer. -/
inductive Raised
  | helper_error (message : Text)
  | other
  deriving DecidableEq

def helper_errors : EntryErrors Raised where
  scoped_address := .helper_error "scoped addresses not allowed".toList
  invalid := .helper_error "invalid whitelist entry".toList
  too_many := .helper_error "too many whitelist entries".toList

/-- Why `secure_read` got nothing from the file system. The first four are its own checks. -/
inductive ReadFailure
  | not_absolute
  | unsafe_parent
  | unsafe_file
  | too_large
  /-- `OSError` -/
  | os_error
  deriving DecidableEq

def ReadFailure.raised : ReadFailure → Raised
  | .not_absolute => .helper_error "whitelist path must be absolute".toList
  | .unsafe_parent => .helper_error "unsafe whitelist parent directory".toList
  | .unsafe_file => .helper_error "unsafe whitelist file".toList
  | .too_large => .helper_error "whitelist exceeds size limit".toList
  | .os_error => .other

/-- A text stream hands out `\n` for each of the three ends of lines. -/
def universal_newlines : Text → Text
  | [] => []
  | '\r' :: '\n' :: cs => '\n' :: universal_newlines cs
  | c :: cs => (if c = '\r' then '\n' else c) :: universal_newlines cs

/-- `secure_read`: a file that is not ASCII raises `UnicodeDecodeError`. -/
def secure_read (file : Except ReadFailure Text) : Except Raised Text :=
  match file with
  | .error failure => .error failure.raised
  | .ok data => if is_ascii data then .ok (universal_newlines data) else .error .other

/-- `pf_helper.parse_whitelist` -/
def helper_parse_whitelist (text : Text) : Except Raised (List IPNetwork) :=
  parse_lines helper_errors [] (splitlines text)

/-! ## Both readers

In ASCII every end of a line a text stream translates is one that `splitlines` knows, and what it
makes of them ends a line too. -/

theorem splitlines_from_cons {line cs : Text} {c : Char}
    (h : ∀ cs', c :: cs = '\r' :: '\n' :: cs' → False) :
    splitlines_from line (c :: cs) =
      if is_line_end c then line.reverse :: splitlines_from [] cs
      else splitlines_from (c :: line) cs := by
  rw [splitlines_from]
  intro cs' h1 h2
  exact h cs' (by rw [h1, h2])

/-- Translating the ends of lines does not change the lines. -/
theorem splitlines_universal_newlines (text : Text) : ∀ line : Text,
    splitlines_from line (universal_newlines text) = splitlines_from line text := by
  induction text using universal_newlines.induct with
  | case1 => intro line; rfl
  | case2 cs ih =>
    intro line
    have hnot : ∀ cs', '\n' :: universal_newlines cs = '\r' :: '\n' :: cs' → False :=
      fun cs' h => absurd (List.cons.inj h).1 (by decide)
    rw [universal_newlines, splitlines_from_cons hnot, if_pos (by decide), ih, splitlines_from]
  | case3 c cs hcrlf ih =>
    intro line
    rw [universal_newlines]
    · have hnot : ∀ cs', (if c = '\r' then '\n' else c) :: universal_newlines cs =
          '\r' :: '\n' :: cs' → False := by
        intro cs' h
        have hhead := (List.cons.inj h).1
        split at hhead
        · exact absurd hhead (by decide)
        · rename_i hne
          exact hne hhead
      have hnot' : ∀ cs', c :: cs = '\r' :: '\n' :: cs' → False := by
        intro cs' h
        exact hcrlf cs' (List.cons.inj h).1 (List.cons.inj h).2
      rw [splitlines_from_cons hnot, splitlines_from_cons hnot']
      by_cases hreturn : c = '\r'
      · subst hreturn
        rw [if_pos rfl, if_pos (by decide), if_pos (by decide), ih]
      · rw [if_neg hreturn, ih, ih]
    · exact hcrlf

/-- The loops differ in the exceptions only. -/
theorem parse_lines_ok {ε ε' : Type} (errors : EntryErrors ε) (errors' : EntryErrors ε')
    {lines : List Text} : ∀ {found networks : List IPNetwork},
      parse_lines errors found lines = .ok networks ↔
        parse_lines errors' found lines = .ok networks := by
  induction lines with
  | nil => intro found networks; simp [parse_lines]
  | cons line lines ih =>
    intro found networks
    rw [parse_lines, parse_lines]
    split
    · exact ih
    · split
      · simp
      · cases ip_network false (strip line) with
        | none => simp
        | some network =>
          dsimp only
          split
          · simp
          · exact ih

/-- **Both readers accept the same files and find the same networks in them.** So the server
leaves out of a request what the helper would take out of it, as long as the file is not replaced
between the two readings. -/
theorem readers_agree (data : Text) (networks : List IPNetwork) :
    parse_whitelist data = .ok networks ↔
      (secure_read (.ok data)).bind helper_parse_whitelist = .ok networks := by
  rw [parse_whitelist, secure_read]
  by_cases hascii : is_ascii data = true
  · rw [if_pos hascii, if_pos hascii]
    change _ ↔ helper_parse_whitelist (universal_newlines data) = .ok networks
    unfold helper_parse_whitelist splitlines
    rw [splitlines_universal_newlines]
    exact parse_lines_ok server_errors helper_errors
  · rw [if_neg hascii, if_neg hascii]
    exact ⟨fun h => (by cases h), fun h => (by cases h)⟩

end F2bguard.Whitelist
