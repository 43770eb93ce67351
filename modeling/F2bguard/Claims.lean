/-
Events and claims of the receiver, and their validators (`store.py`, first part).

`parse_event` and `parse_claim` turn a decoded JSON value into an `Event` or a
`Claim`, or raise. They are translated field by field, in the order the source checks
them, with the texts of its errors. `ValidationError` is not the only exception that
can leave them: `float()` of an integer beyond the doubles raises `OverflowError`,
so the exceptions are a type of their own.

Each validator of a field has one exit that returns and the others raise; what it returns is the
canonical form, so everything behind this module sees one spelling of an address or an identifier.
The definitions keep the order of the source also where two checks could be made in either order,
since a request with two faults gets the message of the first.
-/
import F2bguard.PyJson
import F2bguard.Ipaddress
import F2bguard.Datetime
import F2bguard.Uuid

set_option autoImplicit false

namespace F2bguard.Claims

open F2bguard.PyText F2bguard.PyJson F2bguard.Ipaddress F2bguard.Datetime F2bguard.Uuid

/-- What a validator raises. -/
inductive Raised
  | validation_error (message : Text)
  /-- `OverflowError: int too large to convert to float` -/
  | overflow_error
  deriving DecidableEq

/-- `raise ValidationError(message)`. -/
def invalid {α : Type} (message : Text) : Except Raised α := .error (.validation_error message)

/-- `op`, one of the two texts. -/
inductive Op
  | ban
  | unban
  deriving DecidableEq

def Op.text : Op → Text
  | .ban => "ban".toList
  | .unban => "unban".toList

/-- An `Event`, as `parse_event` makes it. `expires_at` is the float of the source as the number it
stands for. Of the floats in range only `-0.0` and `0.0` are the same number; they compare equal, but
are written differently, so an event that is sent with the one and repeated with the other is a
duplicate here and conflicting content in the code. Both leave the claims and the numbers as they
are. -/
structure Event where
  event_id : Text
  seq : ℕ
  op : Op
  jail : Text
  ban_id : Text
  ip : Text
  permanent : Option Bool
  expires_at : Option ℚ
  deriving DecidableEq

/-- A `Claim` of a snapshot, with the same reading of `expires_at`. -/
structure Claim where
  jail : Text
  ban_id : Text
  ip : Text
  permanent : Bool
  expires_at : Option ℚ
  deriving DecidableEq

/-- `expires_at` on the wire. -/
def wire_expires : Option ℚ → Json
  | none => .null
  | some q => .float (.finite q)

/-- `permanent` on the wire. An unban may leave it out, and then it is null. -/
def wire_permanent : Option Bool → Json
  | none => .null
  | some b => .bool b

/-- `Event.wire`: the canonical form of an event. It is what the stored hash is taken of, and what
the parser is shown to accept again. -/
def Event.wire (e : Event) : Json := .obj [
  ("event_id".toList, .str e.event_id),
  ("seq".toList, .int e.seq),
  ("op".toList, .str e.op.text),
  ("jail".toList, .str e.jail),
  ("ban_id".toList, .str e.ban_id),
  ("ip".toList, .str e.ip),
  ("permanent".toList, wire_permanent e.permanent),
  ("expires_at".toList, wire_expires e.expires_at)]

/-- `Claim.wire`: the canonical form of a claim of a snapshot. -/
def Claim.wire (c : Claim) : Json := .obj [
  ("jail".toList, .str c.jail),
  ("ban_id".toList, .str c.ban_id),
  ("ip".toList, .str c.ip),
  ("permanent".toList, .bool c.permanent),
  ("expires_at".toList, wire_expires c.expires_at)]

/-! ## Fields

One definition for each validator of a field, under its name. The argument is a value of JSON, and
the cases that name no constructor are the values of another type. -/

/-- `_uuid(value, name)`. `uuid.UUID` accepts many spellings: braces, a `urn:` prefix, hyphens
anywhere or nowhere. The text must be the one that `str` prints, but for the case of its letters;
a spelling that parses and is not that one has a message of its own. -/
def _uuid (value : Json) (name : Text) : Except Raised Text :=
  match value with
  | .str value =>
      match uuid_int value with
      | none => invalid (name ++ " must be a UUID string".toList)
      | some parsed =>
          -- it parses, but not as it would be printed
          if lower value ≠ uuid_str parsed then
            invalid (name ++ " must be a canonical UUID".toList)
          else .ok (uuid_str parsed)
  | _ => invalid (name ++ " must be a UUID string".toList)

/-- `MAX_SEQ`, the largest integer SQLite stores. -/
def max_seq : ℕ := 2 ^ 63 - 1

/-- `_seq(value)`. A boolean is an `int` to Python; the source excludes it, and here it is a
constructor of its own. -/
def _seq (value : Json) : Except Raised ℕ :=
  match value with
  | .int n =>
      if 0 < n ∧ n ≤ max_seq then .ok n.toNat
      else invalid "seq must be an integer between 1 and 2^63-1".toList
  | _ => invalid "seq must be an integer between 1 and 2^63-1".toList

/-- The first character of an identifier: `[A-Za-z0-9]`. -/
def is_id_start (c : Char) : Bool :=
  ('A' ≤ c && c ≤ 'Z') || ('a' ≤ c && c ≤ 'z') || ('0' ≤ c && c ≤ '9')

/-- The others: `[A-Za-z0-9_.:-]`. -/
def is_id_char (c : Char) : Bool := is_id_start c || c = '_' || c = '.' || c = ':' || c = '-'

/-- `_ID_RE.fullmatch(value)`. -/
def id_re (value : Text) : Bool :=
  match value with
  | [] => false
  | c :: cs => is_id_start c && cs.all is_id_char && cs.length ≤ 127

/-- `_identifier(value, name)`: the text of a jail, as it is. There is nothing to normalise. -/
def _identifier (value : Json) (name : Text) : Except Raised Text :=
  match value with
  | .str value => if id_re value then .ok value else invalid (name ++ " is invalid".toList)
  | _ => invalid (name ++ " is invalid".toList)

/-- `_ip(value)`. A scope id is refused before the library is asked, because the address would
then differ from one host to another. What parses is refused when it is special-purpose, and
otherwise printed in the form that all comparisons use. -/
def _ip (value : Json) : Except Raised Text :=
  match value with
  | .str value =>
      if '%' ∈ value then invalid "ip must be an IP literal".toList
      else
        match ip_address value with
        | none => invalid "ip must be an IP literal".toList
        | some parsed =>
            if parsed.is_protected then
              invalid "ip is a protected special-purpose address".toList
            else .ok parsed.str
  | _ => invalid "ip must be an IP literal".toList

/-- `float(n)`, `none` for its `OverflowError`. -/
def float_of_int (n : ℤ) : Option ℚ :=
  if n.natAbs < 2 ^ 1024 - 2 ^ 970 then some (to_double n) else none

/-- `MAX_EXPIRES_AT`, the last second of the year 9999. -/
def max_expires_at : ℚ := 253402300799

/-- The range of a timestamp that was given as a number. An infinite literal is not in it, and
neither is a NaN. -/
def expires_in_range (result : PyFloat) : Except Raised (Option ℚ) :=
  match result with
  | .finite q =>
      if 0 ≤ q ∧ q ≤ max_expires_at then .ok (some q)
      else invalid "expires_at is outside the supported range".toList
  | _ => invalid "expires_at is outside the supported range".toList

/-- **`_expires_at(value)`.** Null is no expiry. An integer is converted before its range is
checked, and the conversion raises `OverflowError` beyond the doubles: that is the exit which is
not a `ValidationError`. A text goes to `fromisoformat`, with a final `Z` written as an offset; it
must have a time zone, and no range is checked for it, so instants before 1970 and after 9999
leave this function. -/
def _expires_at (value : Json) : Except Raised (Option ℚ) :=
  match value with
  | .null => .ok none
  | .int n =>
      match float_of_int n with
      -- `float(value)` comes before the range
      | none => .error .overflow_error
      | some q => expires_in_range (.finite q)
  | .float x => expires_in_range x
  | .str text =>
      let text := if text.getLast? = some 'Z' then text.dropLast ++ "+00:00".toList else text
      match fromisoformat text with
      | none => invalid "expires_at must be RFC3339".toList
      | some parsed =>
          match parsed.utcoffset with
          | none => invalid "expires_at must include a timezone".toList
          -- the range is that of numbers; a text is not compared with it
          | some offset => .ok (some (timestamp parsed.local_us offset))
  | _ => invalid "expires_at must be null, a Unix timestamp, or RFC3339".toList

/-! ## Objects

An object is checked for its fields first, missing ones before unknown ones, and then read field
by field. -/

/-- `', '.join(names)`. -/
def comma_list (names : List Text) : Text := ", ".toList.intercalate names

/-- The checks on the fields of an object: none is missing, none is unknown. Both
lists of names in the messages are sorted, and `required` is given in that order. -/
def check_fields (kind : Text) (required optional : List Text) (raw : List (Text × Json)) :
    Except Raised Unit :=
  let missing := required.filter (fun name => (get_item raw name).isNone)
  let unknown := (raw.map Prod.fst).filter (fun name => name ∉ required ++ optional)
  if missing ≠ [] then invalid (kind ++ " missing field(s): ".toList ++ comma_list missing)
  else if unknown ≠ [] then
    invalid (kind ++ " has unknown field(s): ".toList
      ++ comma_list (unknown.insertionSort (fun a b => ¬ b < a)))
  else .ok ()

/-- `raw[name]` of a field that was checked to be there, and `raw.get(name)`. -/
def field (raw : List (Text × Json)) (name : Text) : Json := (get_item raw name).getD .null

/-- The required fields of an event, in the order in which a message lists them. -/
def event_required : List Text :=
  ["ban_id".toList, "event_id".toList, "ip".toList, "jail".toList, "op".toList, "seq".toList]

/-- The others that an event may have. -/
def event_optional : List Text := ["permanent".toList, "expires_at".toList]

/-- `raw['op'] not in ('ban', 'unban')`. -/
def parse_op (value : Json) : Except Raised Op :=
  match value with
  | .str s =>
      if s = "ban".toList then .ok .ban
      else if s = "unban".toList then .ok .unban
      else invalid "op must be ban or unban".toList
  | _ => invalid "op must be ban or unban".toList

/-- `permanent` by the operation: a ban must say it, an unban may leave it out or give null. The
two messages differ. -/
def parse_permanent (op : Op) (value : Json) : Except Raised (Option Bool) :=
  match op, value with
  | _, .bool b => .ok (some b)
  | .unban, .null => .ok none
  | .ban, _ => invalid "ban permanent must be a boolean".toList
  | .unban, _ => invalid "unban permanent must be a boolean when present".toList

/-- **`parse_event(raw)`.** The fields are read in the order of the source, `op`, `permanent` and
`expires_at` before the identifiers. Whichever raises first decides the message, and only
`expires_at` can raise something else than a `ValidationError`. -/
def parse_event (raw : Json) : Except Raised Event :=
  match raw with
  | .obj raw => do
      check_fields "event".toList event_required event_optional raw
      let op ← parse_op (field raw "op".toList)
      let permanent ← parse_permanent op (field raw "permanent".toList)
      let expires ← _expires_at (field raw "expires_at".toList)
      let event_id ← _uuid (field raw "event_id".toList) "event_id".toList
      let seq ← _seq (field raw "seq".toList)
      let jail ← _identifier (field raw "jail".toList) "jail".toList
      let ban_id ← _uuid (field raw "ban_id".toList) "ban_id".toList
      let ip ← _ip (field raw "ip".toList)
      return { event_id, seq, op, jail, ban_id, ip, permanent, expires_at := expires }
  | _ => invalid "event must be an object".toList

/-- The fields of a claim; all are required. -/
def claim_required : List Text :=
  ["ban_id".toList, "expires_at".toList, "ip".toList, "jail".toList, "permanent".toList]

/-- **`parse_claim(raw)`.** As for an event, with fewer fields: a claim of a snapshot is always a
ban, and it has no id of its own. -/
def parse_claim (raw : Json) : Except Raised Claim :=
  match raw with
  | .obj raw => do
      check_fields "claim".toList claim_required [] raw
      let permanent ← match field raw "permanent".toList with
        | .bool b => .ok b
        | _ => invalid "claim permanent must be a boolean".toList
      let expires ← _expires_at (field raw "expires_at".toList)
      let jail ← _identifier (field raw "jail".toList) "jail".toList
      let ban_id ← _uuid (field raw "ban_id".toList) "ban_id".toList
      let ip ← _ip (field raw "ip".toList)
      return { jail, ban_id, ip, permanent, expires_at := expires }
  | _ => invalid "claim must be an object".toList

/-! ## Requests

The two validators of a request. They return what the store is then called with, so the store
never sees a request that is malformed. -/

/-- The endpoints that take writes. -/
inductive Path
  | events
  | snapshot
  deriving DecidableEq

/-- `any(left.seq >= right.seq for left, right in zip(events, events[1:]))` is false. -/
def seqs_increase (events : List Event) : Prop := (events.map Event.seq).IsChain (· < ·)

instance (events : List Event) : Decidable (seqs_increase events) :=
  inferInstanceAs (Decidable ((events.map Event.seq).IsChain (· < ·)))

/-- **`ClaimStore.validate_events`.** The length is checked before any element is parsed, so a
batch that is too long costs nothing more. Then the elements in order, and at last the two
conditions on the batch as a whole: numbers increase strictly, and no id occurs twice. -/
def validate_events (raw_events : Json) (maximum : ℕ) : Except Raised (List Event) :=
  match raw_events with
  | .arr [] => invalid "events must be a non-empty array".toList
  | .arr raw_events => do
      if maximum < raw_events.length then invalid "too many events".toList
      -- the first element that raises ends it
      let events ← raw_events.mapM parse_event
      if ¬ seqs_increase events then invalid "event seq values must strictly increase".toList
      if ¬ (events.map Event.event_id).Nodup then
        invalid "event_id values must be unique within a batch".toList
      return events
  | _ => invalid "events must be a non-empty array".toList

/-- `(claim.jail, claim.ban_id)` -/
def Claim.key (c : Claim) : Text × Text := (c.jail, c.ban_id)

/-- **`ClaimStore.validate_snapshot`.** The id and the number first, then the claims as a list.
Two claims with one jail and one ban id are refused: they could have two addresses. -/
def validate_snapshot (snapshot_id seq raw_claims : Json) (maximum : ℕ) :
    Except Raised (Text × ℕ × List Claim) := do
  let parsed_id ← _uuid snapshot_id "snapshot_id".toList
  let parsed_seq ← _seq seq
  match raw_claims with
  | .arr raw_claims =>
      if maximum < raw_claims.length then invalid "too many claims".toList
      let claims ← raw_claims.mapM parse_claim
      if ¬ (claims.map Claim.key).Nodup then
        invalid "snapshot contains duplicate claim identities".toList
      return (parsed_id, parsed_seq, claims)
  | _ => invalid "claims must be an array".toList

end F2bguard.Claims
