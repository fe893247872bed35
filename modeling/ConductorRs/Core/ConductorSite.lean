import ConductorRs.Core.ConductorMemory

/-!
A conductor at its node, undisturbed.

The sequencer of the node runs or does not. A start turns it on and a stop turns
it off; a control call that is refused has no effect, and its error does not claim
that the sequencer was already started or stopped. Leadership is lost at most by a
transfer that this conductor has asked for. Every other answer is arbitrary: the
health of the node, the committed payload and the block the node is at.
-/
namespace ConductorRs.Conductor

structure Site where
  mem : Memory Unit
  leader : Bool
  running : Bool

/-- `refused` is the error of a control call that fails, and `leading` tells whether
leadership survives a transfer. -/
structure SiteChoice where
  oracle : Oracle
  refused : Option SequencerError
  leading : Bool

/-- How the node treats the calls of its conductor: whether it tells if its
sequencer is active, and whether it carries out every start and stop. -/
structure Manners where
  tells : Bool
  obeys : Bool

def alreadyRunning : SequencerError := .rpc (.jsonRpc (-32000) "sequencer already running" none)

def notRunning : SequencerError := .rpc (.jsonRpc (-32000) "sequencer not running" none)

namespace Site

/-- A start or a stop is carried out, or refused. -/
def control {α : Type} (s : Site) (manners : Manners) (x : SiteChoice)
    (obeyed : Except SequencerError α × Site) : Option (Except SequencerError α × Site) :=
  match x.refused with
  | some err =>
      if manners.obeys || err.isSequencerAlreadyStarted || err.isSequencerAlreadyStopped then none
      else some (.error err, s)
  | none => some obeyed

def start (s : Site) : Except SequencerError Unit × Site :=
  if s.running then (.error alreadyRunning, s) else (.ok (), { s with running := true })

/-- The hash in the reply is not read. -/
def stop (s : Site) : Except SequencerError Hash × Site :=
  if s.running then (.ok .zero, { s with running := false }) else (.error notRunning, s)

def tell (s : Site) (manners : Manners) (x : SiteChoice) :
    Except SequencerError Bool × Site :=
  if manners.tells then (.ok s.running, s) else (.error (x.refused.getD (.rpc .missingResult)), s)

def handOver (s : Site) (x : SiteChoice) : Site := { s with leader := s.leader && x.leading }

def answer (s : Site) (manners : Manners) :
    (o : Op) → SiteChoice → Option (o.Reply × Site)
  | .sequencer .sequencerActive, x => some (s.tell manners x)
  | .sequencer (.startSequencer _), x => s.control manners x s.start
  | .sequencer .stopSequencer, x => s.control manners x s.stop
  | .consensus .leader, _ => some (s.leader, s)
  | .consensus (.setLeaderForTests _), x => some ((), s.handOver x)
  | .consensus .transferLeader, x =>
      some (x.oracle (.consensus .transferLeader), s.handOver x)
  | .consensus (.transferLeaderTo id addr), x =>
      some (x.oracle (.consensus (.transferLeaderTo id addr)), s.handOver x)
  | o, x => some (x.oracle o, s)

def perform (manners : Manners) (s : Site) (o : Op) (x : SiteChoice) :
    Option (o.Reply × Site) :=
  if o.external then s.answer manners o x
  else (s.mem.perform () o).map fun p => (p.1, { s with mem := p.2 })

/-- No call is under way, and nobody has paused or stopped the conductor. -/
structure Ready (s : Site) : Prop where
  enabled : ∀ flag, flag ≠ .seqActive → s.mem.flags flag = false
  unlocked : s.mem.owner .action = none

/-- The conductor knows whether its sequencer runs. -/
def Known (s : Site) : Prop := s.mem.flags .seqActive = s.running

/-- A sequencer runs only at the leader, and at a healthy leader it runs. -/
structure Settled (s : Site) : Prop where
  follower : s.leader = false → s.running = false
  leader : s.leader = true → s.mem.healthy.isHealthy = true → s.running = true

end Site
end ConductorRs.Conductor
