import WaterGateway.Common.Ownership

/-!
# The driver, loaded and unloaded

`led_init` maps five registers, registers the device with the kernel in
four calls, and looks at the answers of the last two; `led_exit` gives all
nine back. So the driver is right about what it has where none of its calls
fails, and not otherwise.
-/

namespace WaterGateway

namespace Alarm

namespace Driver

open Ownership

/-- What `led_init` takes: the mappings of the registers, the device number,
and the entries of the device. -/
inductive Part
  | ccgr1
  | mux
  | pad
  | dr
  | gdir
  | region
  | cdev
  | sysClass
  | device
  deriving DecidableEq

/-- The order to unload the module. -/
inductive Order
  | rmmod
  deriving DecidableEq

abbrev Module := Program Part Empty Order

/-- `led_init`. -/
def ledInit : Module Bool := do
  -- the answers of ioremap are not looked at
  let _ ← acquire .ccgr1
  let _ ← acquire .mux
  let _ ← acquire .pad
  let _ ← acquire .dr
  let _ ← acquire .gdir
  -- readl and writel
  use .ccgr1
  use .mux
  use .pad
  use .gdir
  use .dr
  -- register_chrdev_region or alloc_chrdev_region, and cdev_add: nor are these
  let _ ← acquire .region
  let _ ← acquire .cdev
  unless ← acquire .sysClass do return false
  unless ← acquire .device do return false
  return true

/-- `led_exit`. -/
def ledExit : Module Unit := do
  release .ccgr1
  release .mux
  release .pad
  release .dr
  release .gdir
  release .cdev
  release .region
  release .device
  release .sysClass

/-- **The module**: a `led_init` that fails is not followed by `led_exit`.
Between the two `led_switch` writes to the data register. -/
def module : Module Bool := do
  unless ← ledInit do return false
  await .rmmod [.dr]
  ledExit
  return true

/-- A kernel in which the calls that take the parts of `fails` can fail. -/
def kernel (fails : Part → Bool) : World Part Empty Order where
  fails
    | .acquire r => fails r
    | _ => false
  signals := fun _ => true
  needs := fun _ => []

/-- Nothing is left in the kernel. -/
def LeftNone (_ : Bool) (held : List Part) : Prop := held = []

instance (loaded : Bool) (held : List Part) : Decidable (LeftNone loaded held) :=
  inferInstanceAs (Decidable (held = []))

theorem signalled_module : module.Signalled fun _ => true := by
  decide +kernel

theorem safe_module : module.Safe (kernel fun _ => false) LeftNone .empty := by
  decide +kernel

/-- One call that fails is enough. -/
theorem unsafe_module (r : Part) :
    ¬ module.Safe (kernel fun r' => r' = r) LeftNone .empty := by
  cases r <;> decide +kernel

/-- **The driver rests on each of its calls**: it uses no register that is
not mapped, gives back what it has, each once, and leaves nothing behind,
whether it is loaded or refused, exactly if none of the nine can fail. -/
theorem module_sound_iff (fails : Part → Bool) :
    (∀ ls s, Run.exec (Ownership.step (kernel fails)) (.start module) ls = some s →
      Sound (kernel fails) LeftNone s) ↔ ∀ r, fails r = false := by
  rw [← safe_iff (show module.Signalled (kernel fails).signals from signalled_module)]
  constructor
  · intro hsafe r
    by_contra hfails
    have hwithin : (kernel fun r' => r' = r).Within (kernel fails) := by
      refine ⟨fun o ho => ?_, fun k hk => hk, rfl⟩
      cases o with
      | acquire r' =>
        have heq : r' = r := of_decide_eq_true ho
        exact heq ▸ eq_true_of_ne_false hfails
      | ask | use | release | create | tell | await | join => exact ho
    exact unsafe_module r (hsafe.within hwithin)
  · intro hfails
    have hwithin : (kernel fails).Within (kernel fun _ => false) := by
      refine ⟨fun o ho => ?_, fun k hk => hk, rfl⟩
      cases o with
      | acquire r' => exact absurd ((hfails r').symm.trans ho) Bool.false_ne_true
      | ask | use | release | create | tell | await | join => exact ho
    exact safe_module.within hwithin

end Driver

end Alarm

end WaterGateway
