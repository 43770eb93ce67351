/-
The way from the server to the helper and back.

`HelperClient.replace` (`server.py`) prints a request as one line and sends it up to three
times; `handle` (`pf_helper.py`) reads a line, decodes and carries it out, and prints an
answer. A connection can break at any point in either direction, and a helper that did not
get the whole line changes nothing. When `replace` returns, the helper has carried out exactly
this request, and the answer is the one it gave (`replace_returns`).

The socket carries bytes. Both sides print JSON in ASCII, so a byte is a character here, and the
limits on bytes are limits on the length of a text.
-/
import F2bguard.PfHelper
import F2bguard.Server
import F2bguard.Payloads

set_option autoImplicit false

namespace F2bguard.HelperClient

open F2bguard.PyText F2bguard.PyJson F2bguard.Ipaddress F2bguard.Networks F2bguard.Whitelist
open F2bguard.PfHelper
open F2bguard.Store (bind_eq_ok)

def MAX_HELPER_MESSAGE : ℕ := 4 * 1024 * 1024

/-- `hashlib.sha256(…).hexdigest()`: 64 hexadecimal digits. -/
structure Sha256 where
  hexdigest : Text → Text
  length_eq : ∀ text, (hexdigest text).length = 64
  hex : ∀ text, ∀ c ∈ hexdigest text, is_hex_lower c = true

/-- What both sides run with. -/
structure Env where
  floats : FloatText
  sha256 : Sha256
  max_depth : ℕ := 900
  max_depth_ge : 3 ≤ max_depth := by decide

/-! ## The helper's side

`handle` serves one connection: a check of the peer, one line, one operation, one answer. It
catches every exception, so there is an answer on every path. -/

/-- The hook for objects: of two members with one name the standard decoder would keep the last.
-/
def no_duplicate_keys (pairs : List (Text × Json)) : Except Raised Json :=
  if (pairs.map Prod.fst).Nodup then .ok (.obj pairs) else helper_error "duplicate JSON key".toList

/-- What `json.loads` makes of `NaN`, `Infinity` and `-Infinity`. -/
def constant (name : Text) : Json :=
  .float (if name = "NaN".toList then .nan
    else if name = "Infinity".toList then .inf false else .inf true)

/-- The decoder `handle` sets up; only the hook raises a `HelperError`. -/
def helper_decoder (env : Env) : Decoder Raised where
  object_pairs_hook := no_duplicate_keys
  parse_constant name := .ok (constant name)
  parse_float := env.floats.parse
  max_depth := env.max_depth
  decode_error := .other
  digits_error := .other
  depth_error := .other

/-- `stream.readline(limit)`: up to and with the first end of line, and at most `limit`
characters. A connection that ends early gives a line without its end. -/
def readline (limit : ℕ) (data : Text) : Text :=
  let line := data.takeWhile (· ≠ '\n')
  (if line.length < data.length then line ++ ['\n'] else line).take limit

/-- The first half of `handle`. A peer with another user id is refused before anything is read.
The limit passed to `readline` is one more than a message may have, so that a line that is too
long is seen to be; a line without its end is refused as well. -/
def receive (env : Env) (authorized : Bool) (data : Text) : Except Raised Json :=
  if ¬ authorized then helper_error "unauthorized peer".toList
  else
    let line := readline (MAX_MESSAGE + 1) data
    if MAX_MESSAGE < line.length ∨ line.getLast? ≠ some '\n' then
      helper_error "invalid message length".toList
    else loads (helper_decoder env) line

/-- The answer to a request. It is printed whatever happened, and says no more of an exception
than `error_message` does. -/
def response : Except Raised Applied → Json
  | .ok r => .obj [("ok".toList, .bool true), ("applied_ipv4".toList, .int r.applied_ipv4),
      ("applied_ipv6".toList, .int r.applied_ipv6), ("digest".toList, .str r.digest)]
  | .error e => .obj [("ok".toList, .bool false), ("error".toList, .str (error_message e))]

/-- What becomes of the data of a connection, apart from the text of the answer. -/
def carry_out (env : Env) (outcomes : ℕ → Outcome) (file : Except ReadFailure Text)
    (authorized : Bool) (data : Text) (pf : PF) : Except Raised Applied × PF :=
  match receive env authorized data with
  | .error e => (.error e, pf)
  | .ok request => PfHelper.replace env.sha256.hexdigest outcomes file request pf

/-- `handle` -/
def handle (env : Env) (outcomes : ℕ → Outcome) (file : Except ReadFailure Text)
    (authorized : Bool) (data : Text) (pf : PF) : Text × PF :=
  let (result, pf) := carry_out env outcomes file authorized data pf
  (dumps env.floats (response result) ++ ['\n'], pf)

/-! ## The server's side

`replace` tries a request up to three times, each time over a new connection. Since the helper
replaces whole tables, carrying a request out twice is the same as once. -/

/-- What leaves the server's code: an `EnforcementError`, a `sqlite3.Error`, or another
exception. -/
inductive Failed
  | enforcement_error (error : EnforcementError)
  | database
  | other
  deriving DecidableEq

/-- How one attempt fails: with an `OSError`, with another exception that is caught, or with one
that is not. The first two are tried again, the third leaves `replace`. -/
inductive AttemptError
  | os_error
  | caught (message : Text)
  | escaped
  deriving DecidableEq

/-- The fields of an answer that the server uses. -/
structure Response where
  applied_ipv4 : ℕ
  applied_ipv6 : ℕ
  digest : Option Text
  deriving DecidableEq

/-- `_DIGEST_RE.fullmatch(digest)` -/
def digest_re (digest : Text) : Bool := digest.length = 64 && digest.all is_hex_lower

def enforcement_error {α : Type} (message : Text) : Except AttemptError α :=
  .error (.caught message)

/-- A count in an answer. `True` and `False` are no counts although they are integers to Python:
the source excludes them. -/
def count_of : Option Json → Option ℕ
  | some (.int n) => if 0 ≤ n then some n.toNat else none
  | _ => none

/-- The digest in an answer, `none` when it is invalid. It may be missing, or be null. -/
def digest_of : Option Json → Option (Option Text)
  | none => some none
  | some .null => some none
  | some (.str digest) => if digest_re digest then some (some digest) else none
  | _ => none

/-- An answer of another process is checked like a request. Only one that says `"ok": true` with
both counts and, if any, a digest of the right form is a success; an answer that reports an error
passes its text on, and a text that is empty or none gets a standard one. -/
def _validate_response (response : Json) : Except AttemptError Response :=
  match response with
  | .obj items =>
      match get_item items "ok".toList with
      | some (.bool true) =>
          match count_of (get_item items "applied_ipv4".toList),
              count_of (get_item items "applied_ipv6".toList),
              digest_of (get_item items "digest".toList) with
          | some ipv4, some ipv6, some digest => .ok ⟨ipv4, ipv6, digest⟩
          | _, _, _ => enforcement_error "helper returned invalid applied-state metadata".toList
      | some (.bool false) =>
          match get_item items "error".toList with
          | some (.str []) => enforcement_error "helper rejected replacement".toList
          | some (.str error) => enforcement_error error
          | _ => enforcement_error "helper rejected replacement".toList
      | _ => enforcement_error "invalid helper response".toList
  | _ => enforcement_error "invalid helper response".toList

/-- The end of `_exchange`. The answer has to be one line with its end, within the limit; what the
decoder raises besides `ConfigError` is not caught. -/
def read_response (env : Env) (response : Text) : Except AttemptError Json :=
  if MAX_HELPER_MESSAGE < response.length then
    enforcement_error "helper response exceeds size limit".toList
  else if response.getLast? ≠ some '\n' ∨ response.count '\n' ≠ 1 then
    enforcement_error "invalid helper response framing".toList
  else
    match loads (Server.strict_decoder env.floats env.max_depth) response.dropLast with
    | .ok value => .ok value
    | .error (.config_error message) => enforcement_error message
    | .error _ => .error .escaped

/-- What happens to a connection. The helper gets the first `received` bytes of the request, and
the server the first bytes of the answer, or an `OSError` such as a timeout. So the helper may
have done everything and the server hears nothing of it. -/
structure Exchange where
  received : ℕ
  authorized : Bool
  returned : Option ℕ

section Replace

variable (env : Env) (outcomes : ℕ → Outcome) (file : Except ReadFailure Text)

/-- One attempt: the helper handles what arrives, and the server reads what comes back. The tables
are those the helper left, whether the attempt succeeds or not. -/
def attempt (exchange : Exchange) (request : Text) (pf : PF) : Except AttemptError Response × PF :=
  let (answer, pf) :=
    handle env outcomes file exchange.authorized (request.take exchange.received) pf
  (match exchange.returned with
    | none => .error .os_error
    | some returned => (read_response env (answer.take returned)).bind _validate_response, pf)

/-- The loop over the attempts; the exchanges are those of the attempts that are left. The error
of the last attempt is part of the final one. -/
def try_exchanges (retries : ℕ) (request : Text) :
    List Exchange → Text → PF → Except Failed Response × PF
  | [], last_error, pf => (.error (.enforcement_error ⟨"PF helper failed after ".toList
      ++ to_dec retries ++ " attempts: ".toList ++ last_error⟩), pf)
  | exchange :: exchanges, _, pf =>
      match attempt env outcomes file exchange request pf with
      | (.ok response, pf) => (.ok response, pf)
      | (.error .os_error, pf) =>
          try_exchanges retries request exchanges "PF helper unavailable".toList pf
      | (.error (.caught message), pf) => try_exchanges retries request exchanges message pf
      | (.error .escaped, pf) => (.error .other, pf)

/-- The request as a value. -/
def helper_request (ipv4 ipv6 : List Text) : Json := .obj [
  ("op".toList, .str "replace".toList),
  ("ipv4".toList, .arr (ipv4.map Json.str)),
  ("ipv6".toList, .arr (ipv6.map Json.str))]

/-- The request as it is sent. -/
def encode_request (ipv4 ipv6 : List Text) : Text :=
  dumps env.floats (helper_request ipv4 ipv6) ++ ['\n']

/-- `HelperClient.replace`; there are as many exchanges as `retries`. A request over the limit is
not sent at all, since the helper would refuse it each time. -/
def replace (exchanges : List Exchange) (ipv4 ipv6 : List Text) (pf : PF) :
    Except Failed Response × PF :=
  let request := encode_request env ipv4 ipv6
  if MAX_HELPER_MESSAGE < request.length then
    (.error (.enforcement_error ⟨"helper request exceeds size limit".toList⟩), pf)
  else
    try_exchanges env outcomes file exchanges.length request exchanges "helper unavailable".toList pf

end Replace

/-! ## Requests the helper accepts

A request built from public addresses, each family sorted and without repetitions and not too many
in all, is read by `parse_request` as those addresses. That is the contract between both sides. -/

/-- Addresses that `parse_request` takes as they are. -/
structure Requestable (addresses : Families (List IPAddress)) : Prop where
  version : ∀ version, ∀ a ∈ addresses.get version, a.version = version
  unprotected : ∀ version, ∀ a ∈ addresses.get version, a.is_protected = false
  nodup : ∀ version, (addresses.get version).Nodup
  sorted : ∀ version, (addresses.get version).Pairwise (fun a b => a.toNat ≤ b.toNat)
  count : addresses.v4.length + addresses.v6.length ≤ MAX_ADDRESSES

/-- The request for addresses. -/
def request_of (addresses : Families (List IPAddress)) : Json :=
  helper_request (addresses.v4.map IPAddress.str) (addresses.v6.map IPAddress.str)

/-- The line of the request for addresses. -/
def line_of (env : Env) (addresses : Families (List IPAddress)) : Text :=
  encode_request env (addresses.v4.map IPAddress.str) (addresses.v6.map IPAddress.str)

theorem sorted_set_eq {addresses : List IPAddress} (hnodup : addresses.Nodup)
    (hsorted : addresses.Pairwise (fun a b => a.toNat ≤ b.toNat)) :
    sorted_set addresses = addresses := by
  rw [sorted_set, hnodup.dedup]
  exact hsorted.insertionSort_eq

theorem parse_address_str {version : Version} {a : IPAddress} (hversion : a.version = version)
    (hprotected : a.is_protected = false) : parse_address version (.str a.str) = .ok a := by
  rw [parse_address, if_neg (Ipaddress.not_percent_mem_str a), ip_address_str]
  dsimp only
  rw [if_neg (by simp [hversion]), if_neg (by simp [hprotected])]

theorem parse_family_str {version : Version} {addresses : List IPAddress} {count : ℕ}
    (hversion : ∀ a ∈ addresses, a.version = version)
    (hprotected : ∀ a ∈ addresses, a.is_protected = false)
    (hnodup : addresses.Nodup) (hsorted : addresses.Pairwise (fun a b => a.toNat ≤ b.toNat))
    (hcount : count + addresses.length ≤ MAX_ADDRESSES) :
    parse_family version (.arr ((addresses.map IPAddress.str).map Json.str)) count =
      .ok (addresses, count + addresses.length) := by
  have hmap : ((addresses.map IPAddress.str).map Json.str).mapM (parse_address version) =
      .ok addresses := by
    clear hnodup hsorted hcount
    induction addresses with
    | nil => rfl
    | cons a addresses ih =>
      rw [List.forall_mem_cons] at hversion hprotected
      rw [List.map_cons, List.map_cons, List.mapM_cons,
        parse_address_str hversion.1 hprotected.1, ih hversion.2 hprotected.2]
      rfl
  rw [parse_family, List.length_map, List.length_map, if_neg (not_lt.mpr hcount), hmap]
  dsimp only [Except.map]
  rw [sorted_set_eq hnodup hsorted]

/-- The helper reads a request as the addresses that were meant. -/
theorem parse_request_of {addresses : Families (List IPAddress)} (h : Requestable addresses) :
    parse_request (request_of addresses) = .ok addresses := by
  have h4 := @parse_family_str .four addresses.v4 0 (h.version .four) (h.unprotected .four) (h.nodup .four)
    (h.sorted .four) (by rw [Nat.zero_add]; exact (Nat.le_add_right _ _).trans h.count)
  have h6 := @parse_family_str .six addresses.v6 addresses.v4.length (h.version .six) (h.unprotected .six)
    (h.nodup .six) (h.sorted .six) h.count
  have hkind : is_replacement [("op".toList, .str "replace".toList),
      ("ipv4".toList, .arr ((addresses.v4.map IPAddress.str).map Json.str)),
      ("ipv6".toList, .arr ((addresses.v6.map IPAddress.str).map Json.str))] = true := rfl
  rw [request_of, helper_request, parse_request, if_pos hkind]
  change ((parse_family .four (.arr ((addresses.v4.map IPAddress.str).map Json.str)) 0).bind
    (fun r => (parse_family .six (.arr ((addresses.v6.map IPAddress.str).map Json.str)) r.2).bind
      (fun r' => Except.ok (Families.mk r.1 r'.1)))) = _
  change parse_family .four (.arr ((addresses.v4.map IPAddress.str).map Json.str)) 0 = _ at h4
  rw [h4]
  dsimp only [Except.bind]
  change ((parse_family .six (.arr ((addresses.v6.map IPAddress.str).map Json.str))
    (0 + addresses.v4.length)).bind (fun r' => Except.ok (Families.mk addresses.v4 r'.1))) = _
  rw [Nat.zero_add]
  change parse_family .six (.arr ((addresses.v6.map IPAddress.str).map Json.str)) _ = _ at h6
  rw [h6]
  rfl

/-! ## Lines

A line that is cut anywhere before its end has no end of line, and `receive` refuses it. Therefore
the helper never carries out a part of a request. -/

theorem wire_texts (addresses : List IPAddress) :
    WireList ((addresses.map IPAddress.str).map Json.str) := by
  induction addresses with
  | nil => exact trivial
  | cons a addresses ih =>
    refine ⟨?_, ih⟩
    change PlainText a.str
    intro c hc
    rcases IPAddress.mem_str hc with rfl | rfl | hc
    · decide
    · decide
    · exact Sender.plainChar_of_hex hc

theorem wire_request (addresses : Families (List IPAddress)) : Wire (request_of addresses) := by
  refine ⟨(show ["op".toList, "ipv4".toList, "ipv6".toList].Nodup by decide), ?_, ?_, ?_, wire_texts _,
    ?_, wire_texts _, trivial⟩
  · exact (show PlainText "op".toList by decide)
  · exact (show PlainText "replace".toList by decide)
  · exact (show PlainText "ipv4".toList by decide)
  · exact (show PlainText "ipv6".toList by decide)

theorem nesting_texts (texts : List Text) : nesting_list (texts.map Json.str) = 0 := by
  induction texts with
  | nil => rfl
  | cons text texts ih => rw [List.map_cons, nesting_list, ih]; rfl

theorem nesting_request (addresses : Families (List IPAddress)) :
    nesting (request_of addresses) = 2 := by
  rw [request_of, helper_request]
  simp only [nesting, nesting_items, nesting_texts]
  rfl

theorem newline_not_mem {env : Env} {v : Json} (h : Wire v) : '\n' ∉ dumps env.floats v := by
  intro hmem
  exact absurd (printable_dumps env.floats v h '\n' hmem) (by decide)

/-- A whole line is read as it is, within the limit. -/
theorem readline_line {text : Text} (h : '\n' ∉ text) {limit : ℕ} (hlimit : text.length < limit) :
    readline limit (text ++ ['\n']) = text ++ ['\n'] := by
  have htake : (text ++ ['\n']).takeWhile (· ≠ '\n') = text := by
    rw [List.takeWhile_append_of_pos (by
      intro c hc
      simp only [ne_eq, decide_not, Bool.not_eq_eq_eq_not, Bool.not_true, decide_eq_false_iff_not]
      rintro rfl
      exact h hc)]
    simp
  rw [readline, htake, if_pos (by simp), List.take_of_length_le (by simp; omega)]

/-- What has no end of line does not get one. -/
theorem readline_cut {text : Text} (h : '\n' ∉ text) (limit : ℕ) : '\n' ∉ readline limit text := by
  have htake : text.takeWhile (· ≠ '\n') = text := by
    rw [List.takeWhile_eq_self_iff]
    intro c hc
    simp only [ne_eq, decide_not, Bool.not_eq_eq_eq_not, Bool.not_true, decide_eq_false_iff_not]
    rintro rfl
    exact h hc
  rw [readline, htake, if_neg (lt_irrefl _)]
  exact fun hmem => h (List.mem_of_mem_take hmem)

/-- A part of a line is the whole line or has no end of line. -/
theorem take_line {text : Text} (h : '\n' ∉ text) (n : ℕ) :
    (text ++ ['\n']).take n = text ++ ['\n'] ∨ '\n' ∉ (text ++ ['\n']).take n := by
  by_cases hn : n ≤ text.length
  · right
    rw [List.take_append_of_le_length hn]
    exact fun hmem => h (List.mem_of_mem_take hmem)
  · left
    exact List.take_of_length_le (by simp; omega)

/-! ## What an attempt can do

The helper got the whole request and carried it out, or it got a part and changed nothing. Whether
the answer arrives is a separate matter, and an answer that arrives in part is refused like a
request that does. -/

theorem helper_decoder_keepsObjects (env : Env) : (helper_decoder env).KeepsObjects := by
  intro items h
  simp only [helper_decoder, no_duplicate_keys, if_pos h]

/-- The request is received whole when all of it arrives. -/
theorem receive_whole {env : Env} {addresses : Families (List IPAddress)}
    (hfits : (line_of env addresses).length ≤ MAX_MESSAGE) {n : ℕ}
    (hn : (line_of env addresses).length ≤ n) :
    receive env true ((line_of env addresses).take n) = .ok (request_of addresses) := by
  have hwire := wire_request addresses
  have hnewline := @newline_not_mem env _ hwire
  have hline : line_of env addresses = dumps env.floats (request_of addresses) ++ ['\n'] := rfl
  have hlength : (dumps env.floats (request_of addresses)).length + 1 ≤ MAX_MESSAGE := by
    rwa [hline, List.length_append, List.length_singleton] at hfits
  rw [List.take_of_length_le hn, receive, if_neg (by simp), hline]
  dsimp only
  rw [readline_line hnewline (by omega), if_neg (by simp; omega)]
  exact loads_dumps_line _ _ (helper_decoder_keepsObjects env) hwire
    ((nesting_request addresses).le.trans ((by decide : 2 ≤ 3).trans env.max_depth_ge))

/-- A whole request is received; of a part of one nothing is. -/
theorem receive_line {env : Env} {addresses : Families (List IPAddress)} (n : ℕ)
    (hfits : (line_of env addresses).length ≤ MAX_MESSAGE) :
    receive env true ((line_of env addresses).take n) = .ok (request_of addresses) ∨
      receive env true ((line_of env addresses).take n) =
        helper_error "invalid message length".toList := by
  have hnewline := @newline_not_mem env _ (wire_request addresses)
  have hline : line_of env addresses = dumps env.floats (request_of addresses) ++ ['\n'] := rfl
  rw [hline]
  rcases take_line hnewline n with htake | htake
  · left
    rw [htake, ← hline, ← List.take_of_length_le (le_refl (line_of env addresses).length)]
    exact receive_whole hfits le_rfl
  · right
    rw [receive, if_neg (by simp)]
    dsimp only
    rw [if_pos]
    right
    intro hlast
    exact readline_cut htake _ (List.mem_of_getLast? hlast)

theorem replace_plain {sha256 : Text → Text} {outcomes : ℕ → Outcome} {file : Except ReadFailure Text}
    {request : Json} {pf pf' : PF} {e : Raised}
    (h : PfHelper.replace sha256 outcomes file request pf = (.error e, pf')) :
    PlainText (error_message e) := by
  generalize hresult : (Except.error e : Except Raised Applied) = result at h
  cases replace_ended h with
  | refused hcause hearly hsame =>
    cases hresult
    exact hearly.2.2
  | done hrequest hfile hread hset => cases hresult
  | rolled_back hrequest hfile hread htables =>
    cases hresult
    decide
  | lost hrequest hfile hread =>
    cases hresult
    decide

/-- The data of a connection lead to an error, or they were the whole request. -/
theorem carry_out_line {env : Env} {outcomes : ℕ → Outcome} {file : Except ReadFailure Text}
    {authorized : Bool} {addresses : Families (List IPAddress)} {n : ℕ} {pf pf' : PF}
    {result : Except Raised Applied} (hfits : (line_of env addresses).length ≤ MAX_MESSAGE)
    (h : carry_out env outcomes file authorized ((line_of env addresses).take n) pf = (result, pf')) :
    (∃ e, result = .error e ∧ PlainText (error_message e)) ∨
      PfHelper.replace env.sha256.hexdigest outcomes file (request_of addresses) pf = (result, pf') := by
  unfold carry_out at h
  cases authorized with
  | false =>
    rw [receive, if_pos (by simp)] at h
    obtain ⟨rfl, rfl⟩ := Prod.mk.inj h
    exact Or.inl ⟨_, rfl, by decide⟩
  | true =>
    rcases receive_line n hfits with hreceive | hreceive
    · rw [hreceive] at h
      exact Or.inr h
    · rw [hreceive] at h
      obtain ⟨rfl, rfl⟩ := Prod.mk.inj h
      exact Or.inl ⟨_, rfl, by decide⟩

theorem wire_small {n : ℕ} (h : n ≤ MAX_ADDRESSES) : Wire (.int n) := by
  refine ⟨Int.natCast_nonneg n, ?_⟩
  rw [Int.natAbs_natCast]
  refine ((to_dec_length_le (k := 6) (by decide)).mpr ?_).trans (by decide)
  exact lt_of_le_of_lt h (by decide)

/-- The server reads an answer as it was meant. -/
theorem read_answer {env : Env} {v : Json} (hwire : Wire v) (hdepth : nesting v ≤ 3) (n : ℕ)
    {value : Json} (h : read_response env ((dumps env.floats v ++ ['\n']).take n) = .ok value) :
    value = v := by
  have hnewline := @newline_not_mem env _ hwire
  unfold read_response at h
  split at h
  · cases h
  · split at h
    · cases h
    · rename_i hframing
      rw [not_or, not_not] at hframing
      rcases take_line hnewline n with htake | htake
      · rw [htake, List.dropLast_concat, loads_dumps _ _ (Server.strict_decoder_keepsObjects _ _)
          hwire (hdepth.trans env.max_depth_ge)] at h
        cases h
        rfl
      · exact absurd (List.mem_of_getLast? hframing.1) htake

theorem validate_refusal (e : Raised) :
    ∃ m, _validate_response (response (.error e)) = .error (.caught m) := by
  have hok : get_item [("ok".toList, .bool false), ("error".toList, .str (error_message e))]
      "ok".toList = some (.bool false) := rfl
  have herror : get_item [("ok".toList, .bool false), ("error".toList, .str (error_message e))]
      "error".toList = some (.str (error_message e)) := rfl
  rw [response, _validate_response, hok]
  dsimp only
  rw [herror]
  cases error_message e with
  | nil => exact ⟨_, rfl⟩
  | cons c cs => exact ⟨_, rfl⟩

/-- The answer to a replacement, as the server uses it. -/
def response_of (r : Applied) : Response := ⟨r.applied_ipv4, r.applied_ipv6, some r.digest⟩

theorem validate_applied {r : Applied} (h : digest_re r.digest = true) :
    _validate_response (response (.ok r)) = .ok (response_of r) := by
  have h4 : count_of (some (.int r.applied_ipv4)) = some r.applied_ipv4 := by simp [count_of]
  have h6 : count_of (some (.int r.applied_ipv6)) = some r.applied_ipv6 := by simp [count_of]
  have hdigest : digest_of (some (.str r.digest)) = some (some r.digest) := by
    rw [digest_of, if_pos h]
  change (match count_of (some (.int r.applied_ipv4)), count_of (some (.int r.applied_ipv6)),
      digest_of (some (.str r.digest)) with
    | some ipv4, some ipv6, some digest => Except.ok (Response.mk ipv4 ipv6 digest)
    | _, _, _ => enforcement_error "helper returned invalid applied-state metadata".toList) = _
  rw [h4, h6, hdigest]
  rfl

theorem digest_re_hexdigest (sha256 : Sha256) (text : Text) :
    digest_re (sha256.hexdigest text) = true := by
  rw [digest_re, sha256.length_eq, Bool.and_eq_true, List.all_eq_true]
  exact ⟨by decide, sha256.hex text⟩

theorem plainText_hexdigest (sha256 : Sha256) (text : Text) : PlainText (sha256.hexdigest text) :=
  fun c hc => Sender.plainChar_of_hex (sha256.hex text c hc)

theorem wire_refusal {e : Raised} (h : PlainText (error_message e)) :
    Wire (response (.error e)) := by
  refine ⟨(show ["ok".toList, "error".toList].Nodup by decide), ?_, trivial, ?_, h, trivial⟩
  · exact (show PlainText "ok".toList by decide)
  · exact (show PlainText "error".toList by decide)

theorem wire_applied {r : Applied} (h4 : r.applied_ipv4 ≤ MAX_ADDRESSES)
    (h6 : r.applied_ipv6 ≤ MAX_ADDRESSES) (hdigest : PlainText r.digest) :
    Wire (response (.ok r)) := by
  refine ⟨(show ["ok".toList, "applied_ipv4".toList, "applied_ipv6".toList, "digest".toList].Nodup
    by decide), ?_, trivial, ?_, wire_small h4, ?_, wire_small h6, ?_, hdigest, trivial⟩
  · exact (show PlainText "ok".toList by decide)
  · exact (show PlainText "applied_ipv4".toList by decide)
  · exact (show PlainText "applied_ipv6".toList by decide)
  · exact (show PlainText "digest".toList by decide)

section Returns

variable {env : Env} {outcomes : ℕ → Outcome} {file : Except ReadFailure Text}
  {addresses : Families (List IPAddress)}

/-- The helper replaced the tables and said so. The whitelist is the one the helper read, which
need not be the server's. -/
structure Replaced (env : Env) (outcomes : ℕ → Outcome) (file : Except ReadFailure Text)
    (addresses : Families (List IPAddress)) (r : Response) (pf' : PF) : Prop where
  networks : ∃ networks, read_whitelist file = .ok networks ∧
    r = response_of (applied env.sha256.hexdigest
      (addresses.map (effective (NetworkIndex.of_networks networks)))) ∧
    Set pf' ((addresses.map (effective (NetworkIndex.of_networks networks))).map
      (stdin_of IPAddress.str))

theorem replaced_of_ok (haddresses : Requestable addresses) {pf pf' : PF} {a : Applied}
    (h : PfHelper.replace env.sha256.hexdigest outcomes file (request_of addresses) pf =
      (.ok a, pf')) :
    Replaced env outcomes file addresses (response_of a) pf' ∧ a.applied_ipv4 ≤ MAX_ADDRESSES ∧
      a.applied_ipv6 ≤ MAX_ADDRESSES ∧ ∃ text, a.digest = env.sha256.hexdigest text := by
  generalize hresult : (Except.ok a : Except Raised Applied) = result at h
  cases replace_ended h with
  | @done requested networks pf' hrequest hfile hread hset =>
    cases hresult
    rw [parse_request_of haddresses] at hrequest
    cases hrequest
    have hcount := haddresses.count
    refine ⟨⟨networks, hfile, rfl, hset⟩, ?_, ?_, _, rfl⟩
    · exact (List.length_filter_le _ _).trans ((Nat.le_add_right _ _).trans hcount)
    · exact (List.length_filter_le _ _).trans ((Nat.le_add_left _ _).trans hcount)
  | _ => cases hresult

/-- An attempt that returns has replaced the tables. -/
theorem attempt_returns (haddresses : Requestable addresses)
    (hfits : (line_of env addresses).length ≤ MAX_MESSAGE) {exchange : Exchange} {pf pf' : PF}
    {r : Response}
    (h : attempt env outcomes file exchange (line_of env addresses) pf = (.ok r, pf')) :
    Replaced env outcomes file addresses r pf' := by
  unfold attempt handle at h
  rcases hcarry : carry_out env outcomes file exchange.authorized
    ((line_of env addresses).take exchange.received) pf with ⟨result, pf1⟩
  rw [hcarry] at h
  obtain ⟨hresponse, rfl⟩ := Prod.mk.inj h
  split at hresponse
  · cases hresponse
  · obtain ⟨value, hvalue, hvalidate⟩ := bind_eq_ok.mp hresponse
    rcases carry_out_line hfits hcarry with ⟨e, rfl, hplain⟩ | hreplace
    · -- a refusal is not a response
      rw [read_answer (wire_refusal hplain) (by decide : 1 ≤ 3) _ hvalue] at hvalidate
      obtain ⟨m, hm⟩ := validate_refusal e
      rw [hm] at hvalidate
      cases hvalidate
    · cases result with
      | error e =>
        rw [read_answer (wire_refusal (replace_plain hreplace)) (by decide : 1 ≤ 3) _ hvalue]
          at hvalidate
        obtain ⟨m, hm⟩ := validate_refusal e
        rw [hm] at hvalidate
        cases hvalidate
      | ok a =>
        obtain ⟨hreplaced, h4, h6, text, hdigest⟩ := replaced_of_ok haddresses hreplace
        have hplain : PlainText a.digest := by
          rw [hdigest]
          exact plainText_hexdigest env.sha256 text
        rw [read_answer (wire_applied h4 h6 hplain) (by decide : 1 ≤ 3) _ hvalue, validate_applied (by
          rw [hdigest]
          exact digest_re_hexdigest env.sha256 text)] at hvalidate
        cases hvalidate
        exact hreplaced

theorem try_exchanges_returns (haddresses : Requestable addresses)
    (hfits : (line_of env addresses).length ≤ MAX_MESSAGE) {retries : ℕ} {exchanges : List Exchange} :
    ∀ {last_error : Text} {pf pf' : PF} {r : Response},
      try_exchanges env outcomes file retries (line_of env addresses) exchanges last_error pf =
          (.ok r, pf') →
        Replaced env outcomes file addresses r pf' := by
  induction exchanges with
  | nil =>
    intro last_error pf pf' r h
    cases h
  | cons exchange exchanges ih =>
    intro last_error pf pf' r h
    rw [try_exchanges] at h
    rcases hattempt : attempt env outcomes file exchange (line_of env addresses) pf with ⟨result, pf1⟩
    rw [hattempt] at h
    cases result with
    | ok r' =>
      obtain ⟨hr, rfl⟩ := Prod.mk.inj h
      cases hr
      exact attempt_returns haddresses hfits hattempt
    | error e =>
      cases e with
      | os_error => exact ih h
      | caught message => exact ih h
      | escaped => cases h

theorem answer_length_le {a : Applied} (h4 : a.applied_ipv4 ≤ MAX_ADDRESSES)
    (h6 : a.applied_ipv6 ≤ MAX_ADDRESSES) {text : Text} (hdigest : a.digest = env.sha256.hexdigest text) :
    (dumps env.floats (response (.ok a)) ++ ['\n']).length ≤ MAX_HELPER_MESSAGE := by
  have hdec : ∀ n ≤ MAX_ADDRESSES, (to_dec n).length ≤ 6 := by
    intro n hn
    exact (to_dec_length_le (by decide)).mpr (lt_of_le_of_lt hn (by decide))
  have hcount4 := hdec _ h4
  have hcount6 := hdec _ h6
  have h64 : (dumps env.floats (.str a.digest)).length = 66 := by
    rw [hdigest, dumps_text_length _ (plainText_hexdigest env.sha256 text), env.sha256.length_eq]
  have htrue : (dumps env.floats (.bool true)).length = 4 := rfl
  have hok : (dumps_str "ok".toList).length = 4 := by decide
  have hipv4 : (dumps_str "applied_ipv4".toList).length = 14 := by decide
  have hipv6 : (dumps_str "applied_ipv6".toList).length = 14 := by decide
  have hname : (dumps_str "digest".toList).length = 8 := by decide
  have hmax : MAX_HELPER_MESSAGE = 4194304 := rfl
  rw [response, List.length_append, dumps_object_length]
  simp only [List.map_cons, List.map_nil, List.sum_cons, List.sum_nil, List.length_cons,
    List.length_nil, h64, htrue, hok, hipv4, hipv6, hname, dumps_seq_length]
  omega

/-- A connection that does not break brings the answer. -/
theorem attempt_whole (haddresses : Requestable addresses)
    (hfits : (line_of env addresses).length ≤ MAX_MESSAGE) {exchange : Exchange} {n : ℕ}
    (hreceived : (line_of env addresses).length ≤ exchange.received)
    (hauthorized : exchange.authorized = true) (hreturned : exchange.returned = some n)
    (hn : MAX_HELPER_MESSAGE ≤ n) {pf pf' : PF} {a : Applied}
    (h : PfHelper.replace env.sha256.hexdigest outcomes file (request_of addresses) pf =
      (.ok a, pf')) :
    attempt env outcomes file exchange (line_of env addresses) pf = (.ok (response_of a), pf') := by
  obtain ⟨-, h4, h6, text, hdigest⟩ := replaced_of_ok haddresses h
  have hplain : PlainText a.digest := by
    rw [hdigest]
    exact plainText_hexdigest env.sha256 text
  have hwire := wire_applied h4 h6 hplain
  have hlength := answer_length_le h4 h6 hdigest
  have hnewline := @newline_not_mem env _ hwire
  have hread : read_response env (dumps env.floats (response (.ok a)) ++ ['\n']) =
      .ok (response (.ok a)) := by
    rw [read_response, if_neg (not_lt.mpr hlength), if_neg]
    · rw [List.dropLast_concat, loads_dumps _ _ (Server.strict_decoder_keepsObjects _ _) hwire
        ((by decide : 1 ≤ 3).trans env.max_depth_ge)]
    · rw [List.getLast?_concat, List.count_append, List.count_eq_zero_of_not_mem hnewline]
      simp
  have hcarry : carry_out env outcomes file exchange.authorized
      ((line_of env addresses).take exchange.received) pf = (.ok a, pf') := by
    rw [carry_out, hauthorized, receive_whole hfits hreceived]
    exact h
  rw [attempt, handle, hcarry, hreturned]
  dsimp only
  rw [List.take_of_length_le (hlength.trans hn), hread]
  dsimp only [Except.bind]
  rw [validate_applied (by
    rw [hdigest]
    exact digest_re_hexdigest env.sha256 text)]

/-- So does `replace` when its first connection does not break. -/
theorem replace_whole (haddresses : Requestable addresses)
    (hfits : (line_of env addresses).length ≤ MAX_MESSAGE) {exchange : Exchange}
    {exchanges : List Exchange} {n : ℕ}
    (hreceived : (line_of env addresses).length ≤ exchange.received)
    (hauthorized : exchange.authorized = true) (hreturned : exchange.returned = some n)
    (hn : MAX_HELPER_MESSAGE ≤ n) {pf pf' : PF} {a : Applied}
    (h : PfHelper.replace env.sha256.hexdigest outcomes file (request_of addresses) pf =
      (.ok a, pf')) :
    replace env outcomes file (exchange :: exchanges) (addresses.v4.map IPAddress.str)
      (addresses.v6.map IPAddress.str) pf = (.ok (response_of a), pf') := by
  have hmax : ¬ MAX_HELPER_MESSAGE < (encode_request env (addresses.v4.map IPAddress.str)
      (addresses.v6.map IPAddress.str)).length := not_lt.mpr hfits
  rw [replace, if_neg hmax, try_exchanges]
  change (match attempt env outcomes file exchange (line_of env addresses) pf with
    | (.ok response, pf) => (Except.ok response, pf)
    | (.error .os_error, pf) => _
    | (.error (.caught message), pf) => _
    | (.error .escaped, pf) => _) = _
  rw [attempt_whole haddresses hfits hreceived hauthorized hreturned hn h]

/-- **When `replace` returns, the tables are those of this request.** Whatever happened to the
attempts before the one that returned, each of them carried out this very request or nothing, so
the answer the server got describes the tables as they are. -/
theorem replace_returns (haddresses : Requestable addresses) {exchanges : List Exchange}
    {pf pf' : PF} {r : Response}
    (h : replace env outcomes file exchanges (addresses.v4.map IPAddress.str)
      (addresses.v6.map IPAddress.str) pf = (.ok r, pf')) :
    Replaced env outcomes file addresses r pf' := by
  unfold replace at h
  dsimp only at h
  split at h
  · cases h
  · rename_i hfits
    exact try_exchanges_returns haddresses (not_lt.mp hfits) h

end Returns

end F2bguard.HelperClient
