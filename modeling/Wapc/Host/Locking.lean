import Wapc.Host.Step

/-!
# Who holds the store lock

The caller and the handler loop enter the guest under one lock. `Locked` says that the
holder of the lock is the party that is in the guest, and every step of a context keeps
it. A caller also enters the guest before it calls the context, which `starting` stands
for.
-/

namespace Wapc.Host

open Semantics

/-- The caller is in the guest. -/
def Caller.isInside : Caller → Bool
  | .inside _ _ _ => true
  | _ => false

/-- Who holds the store lock. -/
def Context.holder (ctx : Context) : Option Holder := ctx.frame.map (·.holder)

/-- The store lock is held by the party that is in the guest. The caller can be there
before it calls the context. -/
structure Context.Locked (starting : Bool) (ctx : Context) : Prop where
  caller : ctx.holder = some .caller ↔ starting ∨ ctx.caller.isInside
  handler : ctx.holder = some .handler ↔ ctx.handler = .busy

namespace Context.Locked

variable {starting : Bool} {ctx next : Context} {event : Event}

/-- A step that keeps who is in the guest. -/
theorem frame (locked : ctx.Locked starting) (holder : next.holder = ctx.holder)
    (caller : next.caller.isInside = ctx.caller.isInside)
    (handler : next.handler = .busy ↔ ctx.handler = .busy) : next.Locked starting where
  caller := by rw [holder, caller, locked.caller]
  handler := by rw [holder, handler, locked.handler]

/-- The lock is free, and its new holder enters the guest. -/
theorem free (locked : ctx.Locked starting) (unlocked : ctx.frame = none) :
    starting = false ∧ ctx.caller.isInside = false ∧ ctx.handler ≠ .busy := by
  have holder : ctx.holder = none := by simp [Context.holder, unlocked]
  have caller := locked.caller
  have handler := locked.handler
  rw [holder] at caller handler
  have outside : ¬ (starting ∨ ctx.caller.isInside) := by
    intro inside
    cases caller.mpr inside
  push Not at outside
  refine ⟨by simpa using outside.1, by simpa using outside.2, ?_⟩
  intro busy
  cases handler.mpr busy

/-- No step but an exit lets the lock go, and a panic ends the context. -/
theorem step (locked : ctx.Locked starting) (moved : Step ctx event next)
    (alive : next.crashed = false) (begun : ∀ exit, event = .exit exit → starting = false) :
    next.Locked starting := by
  have holds {holder : Holder} {hostCall : Option I32}
      (frame : ctx.frame = some { holder := holder, hostCall := hostCall }) :
      ctx.holder = some holder := by simp [Context.holder, frame]
  cases moved with
  | start free =>
    refine locked.frame rfl ?_ Iff.rfl
    cases caller : ctx.caller <;> simp_all [Caller.free, Caller.isInside]
  | enter caller unlocked =>
    obtain ⟨-, -, idle⟩ := locked.free unlocked
    exact ⟨by simp [Context.holder, Caller.isInside], by simp [Context.holder, idle]⟩
  | notify received unlocked =>
    obtain ⟨before, outside, -⟩ := locked.free unlocked
    exact ⟨by simp [Context.holder, before, outside], by simp [Context.holder]⟩
  | exportMissing caller unlocked =>
    exact locked.frame rfl (by simp [caller, Caller.isInside]) Iff.rfl
  | hostCall frame =>
    exact locked.frame (by simp [Context.holder, frame]) rfl Iff.rfl
  | hostCallReturns frame =>
    exact locked.frame (by simp [Context.holder, frame]) rfl Iff.rfl
  | handlerExit frame =>
    have outside := (not_congr locked.caller).mp (by rw [holds frame]; simp)
    exact ⟨by simpa [Context.holder] using outside, by simp [Context.holder]⟩
  | syncReturned frame caller | syncTrapped frame caller | asyncReturned frame caller
    | asyncTrapped frame caller =>
    have before := begun _ rfl
    have notBusy := (not_congr locked.handler).mp (by rw [holds frame]; simp)
    exact ⟨by simp [Context.holder, Caller.isInside, before], by simp [Context.holder, notBusy]⟩
  | asyncTrapPanics => cases alive
  | finish caller | resolve caller | resolveDropped caller | dropFuture caller =>
    exact locked.frame rfl (by simp [caller, Caller.isInside]) Iff.rfl
  | receive idle =>
    exact locked.frame rfl rfl (by simp [idle])
  | _ => exact locked.frame rfl rfl Iff.rfl

end Context.Locked
end Wapc.Host
