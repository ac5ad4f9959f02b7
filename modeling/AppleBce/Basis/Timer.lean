import Mathlib.Logic.Basic

namespace Basis

universe u
variable {κ : Type u}

/-- A timer with a callback that never runs beside itself. `running` is where the callback is. -/
structure Timer (κ : Type u) where
  pending : Bool
  running : Option κ

namespace Timer

def idle : Timer κ := ⟨false, none⟩

def arm (t : Timer κ) : Timer κ := { t with pending := true }

/-- The timer expires, and the callback begins. -/
def expire (t : Timer κ) (c : κ) : Option (Timer κ) :=
  if t.pending ∧ t.running.isNone then some ⟨false, some c⟩ else none

/-- The callback goes on. -/
def goOn (t : Timer κ) (c : κ) : Timer κ := { t with running := some c }

/-- The callback returns. -/
def finish (t : Timer κ) : Timer κ := { t with running := none }

/-- Deletes the timer when its callback does not run, and waits until then. -/
def deleteSync (t : Timer κ) : Option (Timer κ) :=
  if t.running.isNone then some { t with pending := false } else none

/-- The callback does not run, and will not before the timer is armed. -/
def Quiet (t : Timer κ) : Prop := t.pending = false ∧ t.running = none

variable {t t' : Timer κ} {c : κ}

theorem idle_quiet : (idle : Timer κ).Quiet := ⟨rfl, rfl⟩

theorem expire_eq (run : t.expire c = some t') : t.pending = true ∧ t.running = none ∧ t' = ⟨false, some c⟩ := by
  obtain ⟨⟨pending, waiting⟩, same⟩ := Option.ite_none_right_eq_some.mp run
  exact ⟨pending, Option.isNone_iff_eq_none.mp waiting, (Option.some.inj same).symm⟩

theorem expire_not_quiet (run : t.expire c = some t') : ¬t.Quiet := by
  rintro ⟨pending, -⟩
  rw [(expire_eq run).1] at pending
  cases pending

theorem deleteSync_quiet (run : t.deleteSync = some t') : t'.Quiet := by
  obtain ⟨waiting, same⟩ := Option.ite_none_right_eq_some.mp run
  cases Option.some.inj same
  exact ⟨rfl, Option.isNone_iff_eq_none.mp waiting⟩

theorem not_quiet_of_running (running : t.running = some c) : ¬t.Quiet := by
  rintro ⟨-, none⟩
  rw [running] at none
  cases none

end Timer

end Basis
