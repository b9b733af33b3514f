import EbpfToolbox.Ipc.Msgqueue
import EbpfToolbox.Lib.Machine

/-!
# Sends and receives of a message queue

The kernel side of `ipc/msgqueue`, with every probe body as one step. A send
enters, loads its message at an address, has it inserted or handed over, and
exits; when it fails it frees the message itself. A receive enters, stores the
message it got, frees it and exits; it may skip the store. Messages that are
still queued are freed when their queue is destroyed.

`Kern` is what the kernel knows and the maps do not: the last message at every
address and where every thread is in its call. `traffic` allows every order the
kernel allows; `Ideal` and `NoReuse` narrow it down.
-/

namespace EbpfToolbox.Ipc.Msgqueue

open Common Lib

variable {T : Type}

/-! ## The kernel -/

/-- Loaded, inserted by `msg_insert`, or handed over to a waiting receiver. -/
inductive Stage : Type where
  | loaded
  | queued
  | handed
deriving DecidableEq, Repr

/-- A message. `exitRan`: an exit probe that looks for its address ran after the
message was loaded and before it was inserted, if it ever was. -/
structure Msg (T : Type) where
  sender : T
  stage : Stage
  takenBy : Option T
  freed : Bool
  exitRan : Bool

def Msg.new (t : T) : Msg T := ⟨t, .loaded, none, false, false⟩

def Msg.passExit (m : Msg T) : Msg T :=
  if m.stage = .queued then m else { m with exitRan := true }

theorem Msg.passExit_fields (m : Msg T) :
    m.passExit.sender = m.sender ∧ m.passExit.stage = m.stage ∧ m.passExit.takenBy = m.takenBy ∧
      m.passExit.freed = m.freed := by
  unfold Msg.passExit
  split_ifs <;> exact ⟨rfl, rfl, rfl, rfl⟩

inductive SendPhase : Type where
  | entered
  | loaded (msg : UInt64)
  | delivered (msg : UInt64)
  | failed (msg : UInt64)
deriving DecidableEq, Repr

def SendPhase.msg : SendPhase → Option UInt64
  | .entered => none
  | .loaded msg => some msg
  | .delivered msg => some msg
  | .failed msg => some msg

inductive RecvPhase : Type where
  | waiting
  | stored (msg : UInt64)
  | done
deriving DecidableEq, Repr

structure Kern (T : Type) where
  msgs : UInt64 → Option (Msg T)
  sending : T → Option SendPhase
  receiving : T → Option RecvPhase
  consumed : List (Msg T)

namespace Kern

def start : Kern T := ⟨fun _ => none, fun _ => none, fun _ => none, []⟩

/-- Is there a message at the address, not freed yet, with property `p`? -/
def live (g : Kern T) (msg : UInt64) (p : Msg T → Bool) : Bool :=
  (g.msgs msg).any fun m => !m.freed && p m

/-- A message that a receiver can have: inserted or handed over, and not taken. -/
def Available (g : Kern T) (msg : UInt64) : Bool :=
  g.live msg fun m => m.stage != .loaded && m.takenBy.isNone

variable [DecidableEq T]

def modify (g : Kern T) (msg : UInt64) (f : Msg T → Msg T) : Kern T :=
  { g with msgs := Function.update g.msgs msg ((g.msgs msg).map f) }

def load (g : Kern T) (t : T) (msg : UInt64) : Kern T :=
  { g with
    msgs := Function.update g.msgs msg (some (Msg.new t))
    sending := Function.update g.sending t (some (.loaded msg)) }

def deliver (g : Kern T) (msg : UInt64) (stage : Stage) : Kern T :=
  match g.msgs msg with
  | some m =>
      { g.modify msg fun m => { m with stage } with
        sending := Function.update g.sending m.sender (some (.delivered msg)) }
  | none => g

def take (g : Kern T) (t : T) (msg : UInt64) : Kern T :=
  { g.modify msg fun m => { m with takenBy := some t } with
    receiving := Function.update g.receiving t (some (.stored msg))
    consumed := g.consumed ++ (g.msgs msg).toList }

/-- The exit probe of a send looks for the address of the send's own message,
whatever lives there by now. -/
def exit (g : Kern T) (t : T) : Kern T :=
  let g' := match (g.sending t).bind SendPhase.msg with
    | some msg => g.modify msg Msg.passExit
    | none => g
  { g' with sending := Function.update g.sending t none }

end Kern

/-- Who frees a message: its receiver, its own failing send, or whoever destroys
the queue. -/
inductive FreeBy : Type where
  | receiver
  | sender
  | destroyer
deriving DecidableEq, Repr

def Kern.free [DecidableEq T] (g : Kern T) (t : T) (msg : UInt64) : FreeBy → Kern T
  | .receiver =>
      { g.modify msg fun m => { m with freed := true } with
        receiving := Function.update g.receiving t (some .done) }
  | .sender =>
      { g.modify msg fun m => { m with freed := true } with
        sending := Function.update g.sending t (some (.failed msg)) }
  | .destroyer => g.modify msg fun m => { m with freed := true }

/-! ## Steps -/

inductive Step (T : Type) : Type where
  | sendEnter (t : T) (c : Ctrl) (a : SendArgs)
  | loadMsg (t : T) (ret : UInt64) (fails : Bool)
  | msgInsert (msg : UInt64) (ret : Int32) (now : UInt64) (fails : Bool)
  | handOver (msg : UInt64)
  | sendExit (t : T) (ret : Int32) (fails : Bool)
  | recvEnter (t : T) (c : Ctrl) (a : RecvArgs)
  | storeMsg (t : T) (msg : UInt64) (c : Ctrl) (x : ConsumeArgs)
  | freeMsg (t : T) (msg : UInt64) (why : FreeBy) (c : Ctrl) (x : ConsumeArgs)
  | recvExit (t : T)
  | evict (m : Table) (key : UInt64)

variable [DecidableEq T]

def step (K : Kernel T) (s : State × Kern T) : Step T → State × Kern T
  | .sendEnter t c a =>
      (run (mqSendEnter c (K.task t) a) s.1,
        { s.2 with sending := Function.update s.2.sending t (some .entered) })
  | .loadMsg t ret fails =>
      (run (mqLoadMsgExit (K.task t) ret fails) s.1,
        if validMsgPtr ret then s.2.load t ret else s.2)
  | .msgInsert msg ret now fails =>
      (run (mqMsgInsertExit msg ret now fails) s.1,
        if ret = 0 then s.2.deliver msg .queued else s.2)
  | .handOver msg => (s.1, s.2.deliver msg .handed)
  | .sendExit t ret fails => (run (mqSendExit (K.task t) ret fails) s.1, s.2.exit t)
  | .recvEnter t c a =>
      (run (mqRecvEnter c (K.task t) a) s.1,
        { s.2 with receiving := Function.update s.2.receiving t (some .waiting) })
  | .storeMsg t msg c x => (run (mqStoreMsgEnter c (K.task t) msg x) s.1, s.2.take t msg)
  | .freeMsg t msg why c x =>
      (run (mqFreeMsgEnter c (K.task t) msg x) s.1, s.2.free t msg why)
  | .recvExit t =>
      (run (mqRecvExit (K.task t)) s.1,
        { s.2 with receiving := Function.update s.2.receiving t none })
  | .evict m key => (s.1.erase m key, s.2)

/-- The kernel's order. An address is given out again once its message is freed;
a send returns 0 exactly when its message was inserted or handed over. -/
def Kern.Allows (g : Kern T) : Step T → Bool
  | .sendEnter t _ _ => g.sending t = none && g.receiving t = none
  | .loadMsg t ret _ =>
      g.sending t = some .entered && (!validMsgPtr ret || !g.live ret fun _ => true)
  | .msgInsert msg _ _ _ => g.live msg fun m => m.stage = .loaded
  | .handOver msg => g.live msg fun m => m.stage = .loaded
  | .sendExit t ret _ =>
      match g.sending t with
      | some .entered => ret ≠ 0
      | some (.delivered _) => ret = 0
      | some (.failed _) => ret ≠ 0
      | _ => false
  | .recvEnter t _ _ => g.sending t = none && g.receiving t = none
  | .storeMsg t msg _ _ => g.receiving t = some .waiting && g.Available msg
  | .freeMsg t msg why _ _ =>
      match why with
      | .receiver => g.receiving t = some (.stored msg) ||
          g.receiving t = some .waiting && g.Available msg
      | .sender => g.sending t = some (.loaded msg)
      | .destroyer => g.Available msg && g.live msg fun m => m.stage = .queued
  | .recvExit t => g.receiving t = some .waiting || g.receiving t = some .done
  | .evict m _ => m = .pendingMessages || m = .queuedMessages || m = .directMessages

def traffic (K : Kernel T) : Machine (State × Kern T) (Step T) where
  init := (State.start, Kern.start)
  step := step K
  Allowed s e := s.2.Allows e = true

instance (K : Kernel T) (s : State × Kern T) (e : Step T) :
    Decidable ((traffic K).Allowed s e) :=
  inferInstanceAs (Decidable (s.2.Allows e = true))

end EbpfToolbox.Ipc.Msgqueue
