import Mathlib.Logic.Relation
import ConductorRs.Metatheory.TickRepair

/-!
A fleet of conductors settles from any state.

Ticks of the nodes and disturbances interleave. A disturbance changes a site in any
way that leaves its conductor ready: leadership moves, a sequencer crashes or is
started by hand, the memory of a conductor starts anew. A node is settled for now
when a tick at it has ended well since it was last disturbed or failed; once every
node is, sequencers run at leaders only.
-/
namespace ConductorRs.Conductor
open Concurrency

structure Fleet (Node : Type) where
  sites : Node → Site
  settled : Node → Bool

namespace Fleet
section
variable {Node : Type} [DecidableEq Node]

def set (f : Fleet Node) (n : Node) (s : Site) (settled : Bool) : Fleet Node where
  sites := Function.update f.sites n s
  settled := Function.update f.settled n settled

/-- A tick counts when it ends well, told whether the sequencer is active or after
one that was. -/
inductive Step (cfg : Node → ConductorConfig) (f : Fleet Node) : Fleet Node → Prop where
  | tick (n : Node) (now : Nat) (manners : Manners) (out : Outcome) (s : Site) :
      Runs (Site.perform manners) (Conductor.tick (cfg n) now) (f.sites n) out s →
      Step cfg f (f.set n s (out.isOk && (manners.tells || f.settled n)))
  | disturb (n : Node) (s : Site) : s.Ready → Step cfg f (f.set n s false)

def Steps (cfg : Node → ConductorConfig) : Fleet Node → Fleet Node → Prop :=
  Relation.ReflTransGen (Step cfg)

/-- Every conductor is ready, and a settled site is as its name says. -/
structure Sound (f : Fleet Node) : Prop where
  ready : ∀ n, (f.sites n).Ready
  known : ∀ n, f.settled n = true → (f.sites n).Known
  settled : ∀ n, f.settled n = true → (f.sites n).Settled

theorem Sound.set {f : Fleet Node} (h : f.Sound) {n : Node} {s : Site} {settled : Bool}
    (hready : s.Ready) (hknown : settled = true → s.Known) (hsettled : settled = true → s.Settled) :
    (f.set n s settled).Sound := by
  have hsites : ∀ m, m ≠ n → (f.set n s settled).sites m = f.sites m := fun m hm =>
    Function.update_of_ne hm ..
  have hflags : ∀ m, m ≠ n → (f.set n s settled).settled m = f.settled m := fun m hm =>
    Function.update_of_ne hm ..
  have hsite : (f.set n s settled).sites n = s := Function.update_self ..
  have hflag : (f.set n s settled).settled n = settled := Function.update_self ..
  refine ⟨fun m => ?_, fun m hm => ?_, fun m hm => ?_⟩
  · by_cases hmn : m = n
    · rw [hmn, hsite]
      exact hready
    · rw [hsites m hmn]
      exact h.ready m
  · by_cases hmn : m = n
    · rw [hmn, hsite]
      rw [hmn, hflag] at hm
      exact hknown hm
    · rw [hsites m hmn]
      rw [hflags m hmn] at hm
      exact h.known m hm
  · by_cases hmn : m = n
    · rw [hmn, hsite]
      rw [hmn, hflag] at hm
      exact hsettled hm
    · rw [hsites m hmn]
      rw [hflags m hmn] at hm
      exact h.settled m hm

theorem Sound.step {cfg : Node → ConductorConfig} {f f' : Fleet Node} (h : f.Sound)
    (hstep : Step cfg f f') : f'.Sound := by
  cases hstep with
  | tick n now manners out s hrun =>
      have hrepaired := Site.repaired_of_runs (h.ready n) hrun
      have htold : (out.isOk && (manners.tells || f.settled n)) = true →
          out.isOk = true ∧ (manners.tells = true ∨ (f.sites n).Known) := by
        intro hcounts
        rw [Bool.and_eq_true, Bool.or_eq_true] at hcounts
        exact ⟨hcounts.1, hcounts.2.imp id (h.known n)⟩
      refine h.set hrepaired.ready (fun hcounts => ?_) fun hcounts => ?_
      · exact hrepaired.known (htold hcounts).2
      · exact hrepaired.settled (htold hcounts).2 (htold hcounts).1
  | disturb n s hready => exact h.set hready nofun nofun

theorem Sound.steps {cfg : Node → ConductorConfig} {f f' : Fleet Node} (h : f.Sound)
    (hsteps : Steps cfg f f') : f'.Sound := by
  induction hsteps with
  | refl => exact h
  | tail _ hstep ih => exact ih.step hstep

def start (sites : Node → Site) : Fleet Node := ⟨sites, fun _ => false⟩

/-- Two followers, one of them with a stray sequencer. -/
def pair : Bool → Site
  | true => Site.stray
  | false => ⟨Memory.new .default false, false, false⟩

end
end Fleet
end ConductorRs.Conductor
