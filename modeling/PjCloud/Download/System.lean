import PjCloud.Session.Step

/-!
# The download: server and client

The server of `Session/Step.lean` together with one client (`plugin/toolbox_mcap_cloud/src/
backend_connection.cpp`): `openSessionFresh`, then `downloadSessionResumable` with its frame loop
`runFrameLoop`, and `openSessionResume` on a new connection after a drop.

The socket delivers what the write loop has written in order; `taken` counts the frames the client has
read off it. `onBinaryFrame` keeps the answer to a pending request apart from the frames of the session,
which go to the inbox. In the other direction `up` holds, for each connection, the acks and cancels that
the server's read loop has not handled, and `opens` the open requests whose handler has not begun; a
handler runs beside the read loop. Requests of the server machine are taken from these. Timeouts, a
closed socket, the 500 ms ack timer and the session deadline are choices of the run.
-/

namespace PjCloud.Download
open PjCloud.Lib PjCloud.Session
variable {μ : Type}

/-- How a download ended (`SessionEos`). -/
inductive SessionEos where
  | unset
  | complete
  | cancelled
  | error
  deriving DecidableEq, Repr

/-- Where the client is: in `openSessionFresh`, in `openSessionResume`, in `runFrameLoop`, or between
    two attempts. -/
inductive Phase where
  | opening
  | resuming
  | streaming
  | backoff
  | ended (eos : SessionEos)
  deriving DecidableEq, Repr

/-- The client waits for the answer to an open request. -/
def Phase.waiting : Phase → Bool
  | .opening => true
  | .resuming => true
  | _ => false

/-- The inbox is armed: frames of the current socket are kept (`session_active_`). -/
def Phase.armed : Phase → Bool
  | .opening => true
  | .resuming => true
  | .streaming => true
  | _ => false

/-- What the client sends after its open request. -/
inductive Upstream where
  | ack (throughSeq : Nat)
  | cancel
  deriving DecidableEq, Repr

/-- The client. `delivered` are the messages handed to `on_message`. -/
structure Client (μ : Type) where
  phase : Phase := .opening
  conn : Nat := 0
  taken : Nat := 0
  response : Option (Frame μ) := none
  inbox : List (Frame μ) := []
  lastSeq : Nat := 0
  batchesSinceAck : Nat := 0
  cancelRequested : Bool := false
  cancelSent : Bool := false
  attemptsUsed : Nat := 0
  delivered : List μ := []
  eosTotals : Nat × Nat := (0, 0)

def kAckEveryBatches : Nat := 64

def kMaxResumeAttempts : Nat := 3

/-- The client's reading of an `EosReason`. -/
def sessionEos : EosReason → SessionEos
  | .complete => .complete
  | .cancelled => .cancelled
  | .error => .error

/-- The frame carries the subscription id; otherwise it answers a request. -/
def isSession : Frame μ → Bool
  | .openSession => false
  | .openError _ _ => false
  | _ => true

namespace Client

/-- The end of the download; `finish` clears the inbox. -/
def finish (x : Client μ) (eos : SessionEos) : Client μ :=
  { x with phase := .ended eos, inbox := [] }

/-- A batch whose seq is the next one (`runFrameLoop`). -/
def deliver (x : Client μ) (env : BatchEnvelope μ) : Client μ :=
  { x with
    delivered := x.delivered ++ env.payload
    lastSeq := env.seq
    batchesSinceAck := x.batchesSinceAck + 1 }

/-- One frame of the frame loop: the client after it and what it sends. `timer` says that 500 ms have
    passed since the last ack. -/
def frame (x : Client μ) (timer : Bool) : Frame μ → Client μ × List Upstream
  | .batch env =>
    if env.seq ≠ x.lastSeq + 1 then (x.finish .error, [.cancel])
    else if kAckEveryBatches ≤ x.batchesSinceAck + 1 || timer then
      ({ x.deliver env with batchesSinceAck := 0 }, [.ack env.seq])
    else (x.deliver env, [])
  | .eos reason totalMessagesSent totalBytesSent =>
    ({ x with eosTotals := (totalMessagesSent, totalBytesSent) }.finish (sessionEos reason),
      [.ack x.lastSeq])
  | .error _ _ => (x.finish .error, [])
  | _ => (x, [])

/-- A batch during which `on_message` refuses message `k`. -/
def abort (x : Client μ) (env : BatchEnvelope μ) (k : Nat) : Client μ :=
  { x with
    delivered := x.delivered ++ env.payload.take (k + 1)
    lastSeq := env.seq }.finish .cancelled

/-- A frame arrives (`onBinaryFrame`). -/
def receive (x : Client μ) (f : Frame μ) : Client μ :=
  if isSession f then { x with taken := x.taken + 1, inbox := x.inbox ++ [f] }
  else if x.phase.waiting then { x with taken := x.taken + 1, response := some f }
  else { x with taken := x.taken + 1 }

def opened (x : Client μ) : Client μ :=
  { x with phase := .streaming, batchesSinceAck := 0, cancelSent := false }

/-- The open request has been refused, or no answer has come. Only a resume without an answer is tried
    again. -/
def openFailed (x : Client μ) : Client μ :=
  if x.phase = .resuming ∧ x.response = none then { x with phase := .backoff, inbox := [] }
  else x.finish .error

/-- A new connection, with `openSessionResume` under way on it. -/
def reconnect (x : Client μ) (c : Nat) : Client μ :=
  { x with
    phase := .resuming
    conn := c
    taken := 0
    response := none
    inbox := []
    attemptsUsed := x.attemptsUsed + 1 }

end Client

/-- The server, the client and what is under way from the client to the server. -/
structure System (μ : Type) where
  server : State μ
  client : Client μ
  nconns : Nat
  opens : List (Nat × Option Nat)
  up : Nat → List Upstream

/-- The client has sent `OpenFresh` on its first connection. -/
def System.start (opts : RetainOpts) (plan : List (Batch μ)) : System μ where
  server := .start opts plan
  client := {}
  nconns := 1
  opens := [(0, none)]
  up := fun _ => []

/-- What the client does. -/
inductive ClientAct where
  | receive
  | opened
  | openFailed
  | frame (timer : Bool)
  | abort (k : Nat)
  | requestCancel
  | sendCancel
  | cancelled
  | deadline
  | drop
  | retry (connected : Bool)
  | exhausted
  deriving DecidableEq, Repr

/-- The actions of the whole: a step of the server, a cancel for a session that is gone, or a step of the
    client. -/
inductive Act where
  | server (a : Action)
  | cancelMissing (c : Nat)
  | client (act : ClientAct)
  deriving DecidableEq, Repr

namespace System

/-- The requests of the server machine are those the client has sent, on connections it has opened. -/
def allows (S : System μ) : Action → Bool
  | .openFresh c _ => decide ((c, none) ∈ S.opens)
  | .openResume c cursor => decide ((c, some cursor) ∈ S.opens)
  | .conn c (.ack t _) => decide ((S.up c).head? = some (.ack t))
  | .conn c .cancelLookup => decide ((S.up c).head? = some .cancel)
  | .conn c _ => decide (c < S.nconns)
  | _ => true

/-- The open requests that are left. -/
def opensAfter (S : System μ) : Action → List (Nat × Option Nat)
  | .openFresh c _ => S.opens.erase (c, none)
  | .openResume c cursor => S.opens.erase (c, some cursor)
  | _ => S.opens

/-- The acks and cancels that are left. -/
def upAfter (S : System μ) : Action → Nat → List Upstream
  | .conn c (.ack _ _) => Function.update S.up c (S.up c).tail
  | .conn c .cancelLookup => Function.update S.up c (S.up c).tail
  | _ => S.up

def send (S : System μ) (ms : List Upstream) : Nat → List Upstream :=
  Function.update S.up S.client.conn (S.up S.client.conn ++ ms)

def unread (S : System μ) : List (Frame μ) :=
  (S.server.conns S.client.conn).wire.drop S.client.taken

/-- When the client can act, with at most `k` reconnects. -/
def clientGuard (k : Nat) (S : System μ) : ClientAct → Bool
  | .receive => S.client.phase.armed && !S.unread.isEmpty
  | .opened =>
    S.client.phase.waiting &&
      match S.client.response with
      | some .openSession => true
      | _ => false
  | .openFailed =>
    S.client.phase.waiting &&
      match S.client.response with
      | some .openSession => false
      | _ => true
  | .frame _ => decide (S.client.phase = .streaming) && !S.client.inbox.isEmpty
  | .abort i =>
    decide (S.client.phase = .streaming) &&
      match S.client.inbox with
      | .batch env :: _ => decide (env.seq = S.client.lastSeq + 1) && decide (i < env.payload.length)
      | _ => false
  | .requestCancel => true
  | .sendCancel =>
    decide (S.client.phase = .streaming) && S.client.cancelRequested && !S.client.cancelSent
  | .cancelled =>
    S.client.cancelRequested &&
      (decide (S.client.phase = .streaming) && S.client.inbox.isEmpty ||
        decide (S.client.phase = .backoff))
  | .deadline => decide (S.client.phase = .streaming) || decide (S.client.phase = .backoff)
  | .drop =>
    decide (S.client.phase = .streaming) && S.client.inbox.isEmpty && !S.client.cancelRequested
  | .retry _ =>
    decide (S.client.phase = .backoff) && decide (S.client.attemptsUsed < k) &&
      !S.client.cancelRequested
  | .exhausted => decide (S.client.phase = .backoff) && decide (k ≤ S.client.attemptsUsed)

/-- The state after the client has acted. -/
def clientExec (S : System μ) : ClientAct → System μ
  | .receive =>
    match S.unread with
    | f :: _ => { S with client := S.client.receive f }
    | [] => S
  | .opened => { S with client := S.client.opened }
  | .openFailed => { S with client := S.client.openFailed }
  | .frame timer =>
    match S.client.inbox with
    | f :: rest =>
      { S with
        client := ({ S.client with inbox := rest }.frame timer f).1
        up := S.send ({ S.client with inbox := rest }.frame timer f).2 }
    | [] => S
  | .abort i =>
    match S.client.inbox with
    | .batch env :: _ => { S with client := S.client.abort env i, up := S.send [.cancel] }
    | _ => S
  | .requestCancel => { S with client := { S.client with cancelRequested := true } }
  | .sendCancel =>
    { S with client := { S.client with cancelSent := true }, up := S.send [.cancel] }
  | .cancelled =>
    { S with
      client := S.client.finish .cancelled
      up := if S.client.phase = .streaming ∧ S.client.cancelSent = false then S.send [.cancel]
            else S.up }
  | .deadline =>
    { S with
      client := S.client.finish .cancelled
      up := if S.client.phase = .streaming then S.send [.cancel] else S.up }
  | .drop => { S with client := { S.client with phase := .backoff } }
  | .retry false =>
    { S with client := { S.client with attemptsUsed := S.client.attemptsUsed + 1 } }
  | .retry true =>
    { S with
      client := S.client.reconnect S.nconns
      nconns := S.nconns + 1
      opens := S.opens ++ [(S.nconns, some S.client.lastSeq)] }
  | .exhausted => { S with client := S.client.finish .unset }

/-- When an action can be taken. -/
def guard (n k : Nat) (S : System μ) : Act → Bool
  | .server a => S.allows a && Session.guard n S.server a
  | .cancelMissing c =>
    decide ((S.up c).head? = some .cancel) && decide ((S.server.conns c).read = .reading) &&
      !S.server.entry.lookup
  | .client act => clientGuard k S act

/-- The state after an action. -/
def exec (n : Nat) (S : System μ) : Act → System μ
  | .server a =>
    { S with server := Session.exec n S.server a, opens := S.opensAfter a, up := S.upAfter a }
  | .cancelMissing c => { S with up := Function.update S.up c (S.up c).tail }
  | .client act => clientExec S act

end System

/-- A download, for a session limit, a number of reconnects, the retain caps and the plan's batches. -/
def download (n k : Nat) (opts : RetainOpts) (plan : List (Batch μ)) : Machine (System μ) Act where
  init S := S = .start opts plan
  guard := System.guard n k
  exec := System.exec n

end PjCloud.Download
