import Limux.Workspace
import Limux.Lib.Machine
import Mathlib.Data.List.Sort

/-! The proxy broker (`app/src/remote/proxy_broker.rs`): one tunnel for each transport
key, shared by leases. A callback goes by the number of the acquire that passed it, a
tunnel and an RPC client by the task that started them. -/
namespace Limux

/-- What a tunnel is shared by: destination, port, identity file and sorted options. -/
def RemoteConfiguration.transportKey (c : RemoteConfiguration) : String :=
  "|".intercalate (("dest=" ++ c.destination) ::
    (c.port.toList.map (fun p => "port=" ++ toString p.toNat) ++
      c.identityFile.toList.map ("id=" ++ ·) ++
      (c.sshOptions.insertionSort (· ≤ ·)).map ("opt=" ++ ·)))

namespace Broker

inductive ProxyState
  | connecting
  | ready (e : ProxyEndpoint)
  | error (detail : String)
  deriving DecidableEq, Repr

abbrev LeaseId := ℕ

structure Entry where
  subscriberCount : ℕ
  tunnel : Option ℕ
  rpc : Option ℕ
  endpoint : Option ProxyEndpoint
  callbacks : List LeaseId
  task : Option ℕ

/-- Where a tunnel task waits: in `start_tunnel`, between two pings, after a ping
that failed, or before the next try. -/
inductive TaskPhase
  | starting | polling | broken | sleeping | done
  deriving DecidableEq, Repr

structure Task where
  key : String
  phase : TaskPhase
  aborted : Bool

end Broker

structure Broker where
  entries : HashMap String Broker.Entry
  /-- Live leases with their transport keys, oldest first. -/
  leases : List (Broker.LeaseId × String)
  nextLease : Broker.LeaseId
  tasks : List Broker.Task
  /-- Calls of callbacks so far. -/
  notified : List (Broker.LeaseId × Broker.ProxyState)

namespace Broker

def init : Broker := ⟨∅,[],0,[],[]⟩

def acquire (s : Broker) (key : String) : Broker :=
  let id := s.nextLease
  let s := { s with leases := s.leases ++ [(id,key)], nextLease := id+1 }
  match s.entries.lookup key with
  | some e =>
    { s with
      entries := s.entries.insert key { e with
        subscriberCount := e.subscriberCount+1, callbacks := e.callbacks ++ [id] }
      notified := s.notified ++ [(id,e.endpoint.elim .connecting .ready)] }
  | none =>
    { s with
      entries := s.entries.insert key ⟨1,none,none,none,[id],some s.tasks.length⟩
      tasks := s.tasks ++ [⟨key,.starting,false⟩]
      notified := s.notified ++ [(id,.connecting)] }

def setPhase (s : Broker) (t : ℕ) (phase : TaskPhase) : Broker :=
  { s with tasks := s.tasks.modify t (fun x => { x with phase := phase }) }

def abort (s : Broker) (t : Option ℕ) : Broker :=
  match t with
  | some t => { s with tasks := s.tasks.modify t (fun x => { x with aborted := true }) }
  | none => s

/-- The last subscriber takes the entry with it, any other one the callback that was
added last. -/
def release (s : Broker) (key : String) : Broker :=
  match s.entries.lookup key with
  | some e =>
    if e.subscriberCount-1 = 0 then { s.abort e.task with entries := s.entries.erase key }
    else { s with entries := s.entries.insert key { e with
      subscriberCount := e.subscriberCount-1, callbacks := e.callbacks.dropLast } }
  | none => s

def dropLease (s : Broker) (id : LeaseId) (key : String) : Broker :=
  { s with leases := s.leases.erase (id,key) }.release key

def notifyAll (s : Broker) (e : Entry) (st : ProxyState) : Broker :=
  { s with notified := s.notified ++ e.callbacks.map (fun id => (id,st)) }

inductive Act
  | acquire (key : String)
  | drop (id : LeaseId)
  /-- Steps of a task: `start_tunnel` returned, a retry delay is over, a ping was
  answered or not, the tunnel is given up, a cancelled task is dropped. -/
  | connected (t : ℕ) (e : ProxyEndpoint)
  | failed (t : ℕ) (detail : String)
  | wake (t : ℕ)
  | poll (t : ℕ) (ok : Bool)
  | restart (t : ℕ)
  | cancel (t : ℕ)

/-- A task in the given phase; one that was aborted may still finish what it does
between two awaits. -/
def task? (s : Broker) (t : ℕ) (phase : TaskPhase) : Option Task :=
  s.tasks[t]?.filter (fun x => x.phase = phase)

def step (s : Broker) : Act → Option Broker
  | .acquire key => some (s.acquire key)
  | .drop id => (s.leases.find? (fun l => l.1 = id)).map (fun l => s.dropLease id l.2)
  | .connected t ep => (s.task? t .starting).map (fun x =>
      match s.entries.lookup x.key with
      | some e =>
        { (s.notifyAll e (.ready ep)).setPhase t .polling with
          entries := s.entries.insert x.key { e with
            tunnel := some t, rpc := some t, endpoint := some ep } }
      | none => s.setPhase t .done)
  | .failed t detail => (s.task? t .starting).map (fun x =>
      match s.entries.lookup x.key with
      | some e => (s.notifyAll e (.error detail)).setPhase t .sleeping
      | none => s.setPhase t .done)
  | .wake t => (s.task? t .sleeping).map (fun x =>
      s.setPhase t (if (s.entries.lookup x.key).isSome then .starting else .done))
  | .poll t ok => (s.task? t .polling).map (fun x =>
      s.setPhase t (if (s.entries.lookup x.key).isNone then .done
        else if ok then .polling else .broken))
  | .restart t => (s.task? t .broken).map (fun x =>
      match s.entries.lookup x.key with
      | some e =>
        { (s.notifyAll e .connecting).setPhase t .starting with
          entries := s.entries.insert x.key { e with
            tunnel := none, rpc := none, endpoint := none } }
      | none => s.setPhase t .done)
  | .cancel t => (s.tasks[t]?.filter Task.aborted).map (fun _ => s.setPhase t .done)

end Broker

end Limux
