import SchemaBoard.Data.Basic

set_option autoImplicit false

/-!
Clocks. A session reads the clock anew for every time that it writes, so a clock may move on while a
command is done.
-/
namespace SchemaBoard

/-- A clock while a command is done: what it shows each time that it is read, and what it shows in
the end. It never goes back. -/
structure Clock where
  reading : Nat → Int
  last : Int
  monotone : ∀ {earlier later : Nat}, earlier ≤ later → reading earlier ≤ reading later
  reading_le_last : ∀ count, reading count ≤ last

namespace Clock

def still (now : Int) : Clock where
  reading := fun _ => now
  last := now
  monotone := fun _ => Int.le_refl now
  reading_le_last := fun _ => Int.le_refl now

def after (readings : Nat) (clock : Clock) : Clock where
  reading := fun count => clock.reading (count + readings)
  last := clock.last
  monotone := fun before => clock.monotone (Nat.add_le_add_right before readings)
  reading_le_last := fun count => clock.reading_le_last (count + readings)

/-- A time stands for a clock that always shows it. -/
instance : Coe Int Clock := ⟨still⟩

instance (now : Nat) : OfNat Clock now := ⟨still now⟩

@[simp] theorem reading_still (now : Int) (count : Nat) : (still now).reading count = now := rfl

@[simp] theorem reading_after (readings count : Nat) (clock : Clock) :
    (clock.after readings).reading count = clock.reading (count + readings) := rfl

end Clock

end SchemaBoard
