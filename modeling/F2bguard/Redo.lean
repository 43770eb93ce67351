/-
A copy of a value, and the writes it has not seen yet.

Something holds a value and makes writes to it; the same writes reach a copy later, in their order.
When every write either sets the value or leaves it alone (`Absorbing`), the copy needs no memory of
what it has seen. Carrying a log out twice is carrying it out once (`replay_replay`), so the copy may
be replaced by what the value was at any time since the writes that are still to come
(`Behind.install`), and a copy that is not behind the value at all, but wrong, becomes right when it
is replaced by the value (`Closed.behind`). Nothing here knows what the values and writes are.
-/
import Mathlib.Logic.Function.Basic
import Mathlib.Data.List.Basic

set_option autoImplicit false

namespace F2bguard.Redo

variable {α ν : Type*}

/-- The write sets the value, or it leaves it alone. -/
def Absorbing (f : ν → ν) : Prop := (∀ v, f v = v) ∨ ∃ c, ∀ v, f v = c

theorem Absorbing.twice {f : ν → ν} (h : Absorbing f) (v : ν) : f (f v) = f v := by
  rcases h with hid | ⟨c, hconst⟩
  · rw [hid]
  · rw [hconst, hconst]

theorem Absorbing.comp {f g : ν → ν} (hf : Absorbing f) (hg : Absorbing g) :
    Absorbing (fun v => g (f v)) := by
  rcases hg with hid | ⟨c, hconst⟩
  · rcases hf with hid' | ⟨c, hconst⟩
    · exact .inl (fun v => (hid _).trans (hid' v))
    · exact .inr ⟨c, fun v => (hid _).trans (hconst v)⟩
  · exact .inr ⟨c, fun v => hconst _⟩

/-! ## Carrying a log out

For the whole log it comes to the same as for one write: the last write that sets the value
decides, and if there is none the value stays. So a log as a whole is absorbing, and done twice it
has the effect of being done once. -/

section Replay

variable (write : α → ν → ν)

/-- The writes of a log, the oldest first. -/
def replay (v : ν) (log : List α) : ν := log.foldl (fun v a => write a v) v

@[simp] theorem replay_nil (v : ν) : replay write v [] = v := rfl

@[simp] theorem replay_cons (v : ν) (a : α) (log : List α) :
    replay write v (a :: log) = replay write (write a v) log := rfl

theorem replay_append (v : ν) (log log' : List α) :
    replay write v (log ++ log') = replay write (replay write v log) log' := List.foldl_append

theorem replay_snoc (v : ν) (log : List α) (a : α) :
    replay write v (log ++ [a]) = write a (replay write v log) := by
  rw [replay_append]
  rfl

end Replay

variable {write : α → ν → ν}

theorem Absorbing.replay (hwrite : ∀ a, Absorbing (write a)) (log : List α) :
    Absorbing (fun v => replay write v log) := by
  induction log with
  | nil => exact .inl (fun _ => rfl)
  | cons a log ih => exact (hwrite a).comp ih

theorem replay_replay (hwrite : ∀ a, Absorbing (write a)) (v : ν) (log : List α) :
    replay write (replay write v log) log = replay write v log :=
  (Absorbing.replay hwrite log).twice v

/-! ## A copy that is behind

The relation between the value and a copy that has yet to see a log. A write makes the log longer
at its end, and the copy takes from its front; neither breaks the relation. -/

/-- The copy will be the value when it has seen the log. -/
def Behind (write : α → ν → ν) (value copy : ν) (log : List α) : Prop :=
  replay write copy log = value

theorem Behind.refl (v : ν) : Behind write v v [] := rfl

theorem Behind.caught_up {value copy : ν} (h : Behind write value copy []) : copy = value := h

/-- A write is made; the copy will see it. -/
theorem Behind.append {value copy : ν} {log : List α} (h : Behind write value copy log) (a : α) :
    Behind write (write a value) copy (log ++ [a]) := by
  rw [Behind, replay_snoc, h]

/-- The copy sees the oldest write. -/
theorem Behind.carry_out {value copy : ν} {log : List α} {a : α}
    (h : Behind write value copy (a :: log)) : Behind write value (write a copy) log := h

/-! ## A checkpoint

What the value was at some time is what the copy would be after a part of the log. While the
checkpoint is under way, the log may grow and the copy may go on. To put the checkpoint in the
copy's place carries the first part of the log out once more than the copy needs, and this does no
harm. -/

/-- What the copy will be when it has seen the first part of the log. -/
def Usable (write : α → ν → ν) (checkpoint copy : ν) (log : List α) : Prop :=
  ∃ seen rest, log = seen ++ rest ∧ checkpoint = replay write copy seen

/-- The value is one. -/
theorem Behind.usable {value copy : ν} {log : List α} (h : Behind write value copy log) :
    Usable write value copy log := ⟨log, [], (List.append_nil log).symm, h.symm⟩

theorem Usable.append {checkpoint copy : ν} {log : List α} (h : Usable write checkpoint copy log)
    (a : α) : Usable write checkpoint copy (log ++ [a]) := by
  obtain ⟨seen, rest, rfl, hcheckpoint⟩ := h
  exact ⟨seen, rest ++ [a], List.append_assoc seen rest [a], hcheckpoint⟩

/-- It stays one while what the copy sees does not change it. -/
theorem Usable.unchanged {checkpoint copy : ν} {log : List α} {a : α}
    (h : Usable write checkpoint copy (a :: log)) (hsame : write a copy = copy) :
    Usable write checkpoint copy log := by
  obtain ⟨seen, rest, hlog, hcheckpoint⟩ := h
  cases seen with
  | nil => exact ⟨[], log, rfl, hcheckpoint⟩
  | cons b seen =>
    obtain ⟨rfl, rfl⟩ := List.cons.inj hlog
    refine ⟨seen, rest, rfl, ?_⟩
    rw [hcheckpoint, replay_cons, hsame]

/-- A checkpoint may replace the copy, whatever the log has grown to. -/
theorem Behind.install (hwrite : ∀ a, Absorbing (write a)) {value checkpoint copy : ν} {log : List α}
    (h : Behind write value copy log) (hcheckpoint : Usable write checkpoint copy log) :
    Behind write value checkpoint log := by
  obtain ⟨seen, rest, rfl, rfl⟩ := hcheckpoint
  rw [Behind, replay_append] at h
  rw [Behind, replay_append, replay_replay hwrite, h]

/-! ## A copy that is wrong

Nothing is known of the copy, but of the value something is: the writes still to come say nothing
that is not true of it any more. Then the value itself is a good checkpoint. -/

/-- Carrying the log out once more does not change the value. -/
def Closed (write : α → ν → ν) (value : ν) (log : List α) : Prop := replay write value log = value

/-- Then the value itself is a copy that is behind by the log. -/
theorem Closed.behind {value : ν} {log : List α} (h : Closed write value log) :
    Behind write value value log := h

theorem Closed.nil (value : ν) : Closed write value [] := rfl

theorem Behind.closed (hwrite : ∀ a, Absorbing (write a)) {value copy : ν} {log : List α}
    (h : Behind write value copy log) : Closed write value log := by
  rw [Closed, ← h, replay_replay hwrite]

theorem Closed.append (hwrite : ∀ a, Absorbing (write a)) {value : ν} {log : List α}
    (h : Closed write value log) (a : α) : Closed write (write a value) (log ++ [a]) := by
  rcases hwrite a with hid | ⟨c, hconst⟩
  · rw [Closed, replay_snoc, hid, hid, h]
  · rw [Closed, replay_snoc, hconst, hconst]

theorem Closed.carry_out (hwrite : ∀ a, Absorbing (write a)) {value : ν} {log : List α} {a : α}
    (h : Closed write value (a :: log)) : Closed write value log := by
  rcases Absorbing.replay hwrite log with hid | ⟨c, hconst⟩
  · exact hid value
  · have hlog : replay write (write a value) log = value := h
    exact (hconst value).trans ((hconst (write a value)).symm.trans hlog)

end F2bguard.Redo
