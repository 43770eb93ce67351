/-
`HelperClient._exchange` (`server.py`), whatever the pieces its answer arrives in.

The loop stops at the first piece with a newline, and the framing is checked on what has been read
so far. For the answers of the helper, which end with their only newline, this is as good as
checking the whole stream (`answer_read_whole`). A byte behind the newline is refused when it
arrives with the newline, and never seen when it arrives later (`exchange_framed_iff`).
-/
import F2bguard.HelperClient
import F2bguard.LineReader

set_option autoImplicit false

namespace F2bguard.HelperClient

open F2bguard.PyText F2bguard.PyJson F2bguard.LineReader

/-- The reader of `_exchange`. -/
def response_reader {α : Type} (newline : α) : Reader α := ⟨newline, 65536, MAX_HELPER_MESSAGE⟩

theorem response_reader_chunk {α : Type} (newline : α) : 1 < (response_reader newline).chunk :=
  (by decide : 1 < 65536)

/-- The texts of the `EnforcementError`s of `_exchange`. -/
def fault_message : Fault → Text
  | .too_long => "helper response exceeds size limit".toList
  | .framing => "invalid helper response framing".toList

/-- `b"\n"` -/
def newline_byte : UInt8 := 10

/-- What becomes of a line, or of a fault. -/
def decoded {β : Type} (strict_json_loads : List UInt8 → β) :
    Except Fault (List UInt8) → Except Text β
  | .error fault => .error (fault_message fault)
  | .ok line => .ok (strict_json_loads line)

/-- `_exchange` after the request has been sent, with the text of its `EnforcementError` or with what
`strict_json_loads` returns or raises for the line. -/
def _exchange {β : Type} (strict_json_loads : List UInt8 → β) (ready : ℕ → ℕ)
    (stream : List UInt8) : Option (Except Text β) :=
  ((response_reader newline_byte).read_line ready stream).map (decoded strict_json_loads)

/-! ## The helper's answers

The helper prints one line and closes, so what reaches the server is a line or the beginning of
one. -/

/-- `read_response` checks the answer as a whole. -/
theorem read_response_check (env : Env) (response : Text) : read_response env response =
    match (response_reader '\n').check response with
    | .error fault => enforcement_error (fault_message fault)
    | .ok line => match loads (Server.strict_decoder env.floats env.max_depth) line with
      | .ok value => .ok value
      | .error (.config_error message) => enforcement_error message
      | .error _ => .error .escaped := by
  unfold read_response Reader.check Reader.line_of response_reader
  dsimp only
  split
  · rfl
  · split
    · rfl
    · rfl

/-- Nothing follows the newline of an answer or of the first part of one. -/
theorem answer_read_whole {env : Env} {answer : Json} (h : Wire answer) (n : ℕ) (ready : ℕ → ℕ) :
    (response_reader '\n').read_line ready ((dumps env.floats answer ++ ['\n']).take n) =
      some ((response_reader '\n').check ((dumps env.floats answer ++ ['\n']).take n)) := by
  refine Reader.read_line_eq_check _ (le_of_lt (response_reader_chunk '\n')) ?_ ready
  have hnewline := @newline_not_mem env _ h
  rcases take_line hnewline n with htake | htake
  · rw [htake]
    exact Reader.not_trails_line (response_reader '\n') hnewline
  · exact Reader.not_trails_of_not_mem (response_reader '\n') htake

/-! ## Any stream

Another process could answer on the socket, and then anything can arrive. -/

/-- What `_exchange` should do with a stream. -/
structure Framed {β : Type} (strict_json_loads : List UInt8 → β) (stream : List UInt8) : Prop where
  /-- it ends, and never calls `recv` with size 0 -/
  ends : ∀ ready fuel, stream.length < fuel →
    ∃ ended, (response_reader newline_byte).read_loop ready fuel { stream := stream } = some ended ∧
      ∀ size ∈ ended.connection.sizes, 0 < size
  /-- the pieces do not matter -/
  same : ∀ ready ready', _exchange strict_json_loads ready stream =
    _exchange strict_json_loads ready' stream
  decodes : ∀ ready line, (response_reader newline_byte).IsLine stream line →
    _exchange strict_json_loads ready stream = some (.ok (strict_json_loads line))
  raises : ∀ ready, (¬ ∃ line, (response_reader newline_byte).IsLine stream line) →
    ∃ message, _exchange strict_json_loads ready stream = some (.error message)

theorem exchange_eq {β : Type} {strict_json_loads : List UInt8 → β} {ready : ℕ → ℕ}
    {stream : List UInt8} {result : Except Fault (List UInt8)}
    (h : (response_reader newline_byte).read_line ready stream = some result) :
    _exchange strict_json_loads ready stream = some (decoded strict_json_loads result) := by
  rw [_exchange, h, Option.map_some]

/-- **When the framing is that of the stream.** The outcome is that of the stream, however it
arrives, exactly when nothing follows a newline within the limit. -/
theorem exchange_framed_iff {β : Type} (strict_json_loads : List UInt8 → β) (stream : List UInt8) :
    Framed strict_json_loads stream ↔ ¬ (response_reader newline_byte).Trails stream := by
  have hchunk := response_reader_chunk newline_byte
  constructor
  · intro h htrails
    obtain ⟨ready, ready', line, fault, hok, herror⟩ := Reader.pieces_matter _ hchunk htrails
    have hsame := h.same ready ready'
    rw [exchange_eq hok, exchange_eq herror] at hsame
    cases hsame
  · intro h
    have hwhole := fun ready => Reader.read_line_eq_check _ (le_of_lt hchunk) h ready
    refine ⟨fun ready fuel hfuel => ?_, fun ready ready' => ?_, fun ready line hline => ?_,
      fun ready hnone => ?_⟩
    · obtain ⟨ended, hended, -, hsizes⟩ := Reader.read_loop_ends (response_reader newline_byte)
        (le_of_lt hchunk) ready fuel { stream := stream } List.not_mem_nil (Nat.zero_le _) hfuel
        (fun _ hs => absurd hs List.not_mem_nil)
      exact ⟨ended, hended, hsizes⟩
    · rw [exchange_eq (hwhole ready), exchange_eq (hwhole ready')]
    · rw [exchange_eq (hwhole ready), (Reader.check_eq_ok_iff _).mpr hline, decoded]
    · rw [exchange_eq (hwhole ready)]
      cases hcheck : (response_reader newline_byte).check stream with
      | error fault => exact ⟨_, rfl⟩
      | ok line => exact absurd ⟨line, (Reader.check_eq_ok_iff _).mp hcheck⟩ hnone

/-- An object, a newline and one more byte: read to the newline it is decoded, in one piece it is
refused. -/
theorem trailing_byte : ¬ Framed id [123, 125, 10, 88] ∧
    _exchange id (fun n => if n = 0 then 2 else 0) [123, 125, 10, 88] = some (.ok [123, 125]) ∧
    _exchange id (fun _ => 3) [123, 125, 10, 88] =
      some (.error "invalid helper response framing".toList) := by
  have hpiece : _exchange id (fun n => if n = 0 then 2 else 0) [123, 125, 10, 88] =
      some (.ok [123, 125]) := by rfl
  have hwhole : _exchange id (fun _ => 3) [123, 125, 10, 88] =
      some (.error "invalid helper response framing".toList) := by rfl
  refine ⟨fun h => ?_, hpiece, hwhole⟩
  have hsame := h.same (fun n => if n = 0 then 2 else 0) (fun _ => 3)
  rw [hpiece, hwhole] at hsame
  cases hsame

end F2bguard.HelperClient
