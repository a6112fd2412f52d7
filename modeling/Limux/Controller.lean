import Limux.BrokerRun
import Limux.WindowRun

/-! The remote controller (`app/src/remote/controller.rs`): connection loops on threads
of their own, the registry of their stop flags, the one slot for a tunnel child, and
the pushes they queue for the main loop. Daemon status and detail texts feed the
sidebar only and are left out; so are sleeps, whose end is a step like any other. -/
namespace Limux

namespace Controller

abbrev LoopId := ℕ
abbrev ChildId := ℕ

/-- Why an attempt ended. -/
inductive Outcome
  | bootstrapFailed | relayFailed | tunnelFailed | metadataFailed | tunnelLost
  deriving DecidableEq, Repr

/-- Where a loop stands: what it does or waits for next. -/
inductive Phase
  /-- The thread is spawned, its runtime not built. -/
  | starting
  /-- The stop check at the top of the loop, and the push after it. -/
  | top | pushConnecting
  /-- `run_full_connection`. -/
  | bootstrap | bootstrapped | relay | relayed | tunnel
  | tunnelWait (c : ChildId)
  | settle | metadata
  /-- The push of `Connected`, and `acquire_proxy_lease`. -/
  | pushConnected | acquireLease
  /-- `monitor_tunnel`: asleep, past the stop check, past an exited child. -/
  | monitor | probe | exited
  | dropLease | pushProxyNone | afterMonitor | pushLost
  | failed (o : Outcome)
  | pushError
  | sleeping
  | done
  deriving DecidableEq, Repr

structure Loop where
  ws : WorkspaceId
  config : RemoteConfiguration
  stop : Bool
  phase : Phase
  lease : Option Broker.LeaseId
  /-- The tunnel child of this attempt, once stored. -/
  tunnel : Option ChildId
  /-- Ports of the relay listeners that tasks of this runtime hold. -/
  listeners : List UInt16
  /-- How the earlier attempts ended. -/
  past : List Outcome
  deriving DecidableEq, Repr

namespace Loop

def goto (x : Loop) (p : Phase) : Loop := { x with phase := p }

def finish (x : Loop) : Loop := { x with phase := .done, listeners := [] }

def relayPort (x : Loop) : UInt16 := x.config.relayPort.getD 0

/-- The relay is set up only with port, credentials and a local socket. -/
def relayConfigured (x : Loop) (localSocket : String) : Bool :=
  !(x.relayPort = 0 || (x.config.relayId.getD "").isEmpty ||
    (x.config.relayToken.getD "").isEmpty || localSocket.isEmpty)

end Loop

inductive ChildStatus
  | running | exited | killed
  deriving DecidableEq, Repr

structure Child where
  owner : LoopId
  status : ChildStatus
  deriving DecidableEq, Repr

/-- What a push changes. -/
inductive Update
  | state (st : RemoteConnectionState)
  | proxy (e : Option ProxyEndpoint)
  deriving DecidableEq, Repr

/-- A closure handed to the main loop, with the loop it comes from. -/
structure Push where
  source : LoopId
  ws : WorkspaceId
  update : Update
  deriving DecidableEq, Repr

/-- What a step of a loop does outside of it. -/
inductive Effect
  | idle
  | push (u : Update)
  | spawn
  | store (c : ChildId)
  | acquire
  | release (id : Broker.LeaseId)
  | kill
  | take
  deriving DecidableEq, Repr

end Controller

structure Controller (F : Type) where
  window : AppWindow F
  registry : HashMap WorkspaceId Controller.LoopId
  loops : List Controller.Loop
  /-- Closures waiting on the main loop, oldest first. -/
  queue : List Controller.Push
  /-- `TUNNEL_CHILD`. -/
  slot : Option Controller.ChildId
  children : List Controller.Child
  broker : Broker
  /-- For each lease so far: the loop that acquired it, and the workspace its callback
  pushes to. -/
  holders : List (Controller.LoopId × WorkspaceId)
  /-- `socket_path()`, empty if there is none. -/
  localSocket : String

namespace Controller

variable {F : Type}

def init (aw : AppWindow F) (localSocket : String) : Controller F :=
  ⟨aw,∅,[],[],none,[],.init,[],localSocket⟩

def setLoop (s : Controller F) (l : LoopId) (x : Loop) : Controller F :=
  { s with loops := s.loops.set l x }

def disconnect (s : Controller F) (w : WorkspaceId) : Controller F :=
  match s.registry.lookup w with
  | some l => { s with
      registry := s.registry.erase w
      loops := s.loops.modify l (fun x => { x with stop := true }) }
  | none => s

def connect (s : Controller F) (w : WorkspaceId) (c : RemoteConfiguration) : Controller F :=
  let s := s.disconnect w
  { s with
    loops := s.loops ++ [⟨w,c,false,.starting,none,none,[],[]⟩]
    registry := s.registry.insert w s.loops.length }

def reconnect (s : Controller F) (w : WorkspaceId) (c : RemoteConfiguration) : Controller F :=
  (s.disconnect w).connect w c

def portFree (s : Controller F) (port : UInt16) : Bool :=
  s.loops.all (fun x => port ∉ x.listeners)

/-- `try_wait` finds an exit status. -/
def hasExited (s : Controller F) (c : ChildId) : Bool :=
  s.children[c]?.any (fun x => x.status ≠ .running)

/-- The next step of a loop; `ok` is the outcome of what it waits for. A bind cannot
succeed on a port that a listener holds. -/
def next (s : Controller F) (x : Loop) (ok : Bool) : Option (Loop × Effect) :=
  match x.phase with
  | .starting => if ok then some (x.goto .top,.idle) else some (x.finish,.push (.state .error))
  | .top => some (if x.stop then x.finish else x.goto .pushConnecting,.idle)
  | .pushConnecting =>
    some ({ x.goto .bootstrap with tunnel := none },.push (.state .connecting))
  | .bootstrap => some (x.goto (if ok then .bootstrapped else .failed .bootstrapFailed),.idle)
  | .bootstrapped =>
    some (x.goto (if x.stop || !x.relayConfigured s.localSocket then .pushConnected
      else .relay),.idle)
  | .relay =>
    if ok then
      if s.portFree x.relayPort then
        some ({ x.goto .relayed with listeners := x.listeners ++ [x.relayPort] },.idle)
      else none
    else some (x.goto (.failed .relayFailed),.idle)
  | .relayed => some (x.goto (if x.stop then .pushConnected else .tunnel),.idle)
  | .tunnel =>
    if ok then some (x.goto (.tunnelWait s.children.length),.spawn)
    else some (x.goto (.failed .tunnelFailed),.idle)
  | .tunnelWait c =>
    if s.hasExited c || !ok then some (x.goto (.failed .tunnelFailed),.idle)
    else some ({ x.goto .settle with tunnel := some c },.store c)
  | .settle => some (x.goto (if x.stop then .pushConnected else .metadata),.idle)
  | .metadata => some (x.goto (if ok then .pushConnected else .failed .metadataFailed),.idle)
  | .pushConnected => some (x.goto .acquireLease,.push (.state .connected))
  | .acquireLease =>
    some ({ x.goto .monitor with lease := some s.broker.nextLease },.acquire)
  | .monitor => if x.stop then some (x.goto .dropLease,.kill) else some (x.goto .probe,.idle)
  | .probe =>
    some (x.goto (if s.slot.any (fun c => s.hasExited c) && ok then .exited else .monitor),.idle)
  | .exited => some (x.goto .dropLease,.take)
  | .dropLease =>
    some ({ x.goto .pushProxyNone with lease := none },x.lease.elim .idle .release)
  | .pushProxyNone => some (x.goto .afterMonitor,.push (.proxy none))
  | .afterMonitor =>
    some (if x.stop then x.finish
      else { x.goto .pushLost with past := x.past ++ [.tunnelLost] },.idle)
  | .pushLost => some (x.goto .sleeping,.push (.state .connecting))
  | .failed o =>
    some (if x.stop then x.finish else { x.goto .pushError with past := x.past ++ [o] },.idle)
  | .pushError => some (x.goto .sleeping,.push (.state .error))
  | .sleeping => some (x.goto .top,.idle)
  | .done => none

def endpointOf : Broker.ProxyState → Option ProxyEndpoint
  | .ready e => some e
  | .connecting | .error _ => none

def callbackPush (s : Controller F) (n : Broker.LeaseId × Broker.ProxyState) : Option Push :=
  s.holders[n.1]?.map (fun h => ⟨h.1,h.2,.proxy (endpointOf n.2)⟩)

/-- The broker moved on, and called callbacks on its way. -/
def withBroker (s : Controller F) (b : Broker) : Controller F :=
  { s with
    broker := b
    queue := s.queue ++ (b.notified.drop s.broker.notified.length).filterMap s.callbackPush }

def perform (s : Controller F) (l : LoopId) (x : Loop) : Effect → Controller F
  | .idle => s
  | .push u => { s with queue := s.queue ++ [⟨l,x.ws,u⟩] }
  | .spawn => { s with children := s.children ++ [⟨l,.running⟩] }
  | .store c => { s with slot := some c }
  | .acquire => { s with holders := s.holders ++ [(l,x.ws)] }.withBroker
      (s.broker.acquire x.config.transportKey)
  | .release id => (s.broker.step (.drop id)).elim s s.withBroker
  | .kill =>
    match s.slot with
    | some c => { s with
        slot := none
        children := s.children.modify c (fun y =>
          if y.status = .running then { y with status := .killed } else y) }
    | none => s
  | .take => { s with slot := none }

inductive Act
  /-- Calls on the main thread. The second one is the start of a restored workspace. -/
  | newRemoteWorkspace (c : RemoteConfiguration) (port : Option UInt16) (id token : String)
  | connect (w : WorkspaceId) (c : RemoteConfiguration)
  | disconnectRemote (id : Option WorkspaceId) (clear : Bool)
  | reconnectRemote (id : Option WorkspaceId)
  | removeWorkspaceAt (i : ℕ)
  /-- The main loop runs the oldest closure. -/
  | deliver
  | loop (l : LoopId) (ok : Bool)
  /-- A tunnel process ends by itself. -/
  | exit (c : ChildId)
  /-- A step of a tunnel task of the broker. -/
  | broker (a : Broker.Act)

def Update.apply (aw : AppWindow F) (w : WorkspaceId) : Update → AppWindow F
  | .state st => aw.updateRemoteState w st
  | .proxy e => aw.updateProxyEndpoint w e

/-- The configuration `reconnect_remote` finds. -/
def configOf (s : Controller F) (w : WorkspaceId) : Option RemoteConfiguration :=
  (s.window.workspaces.find? (fun ws => ws.id = w)).bind Workspace.remoteConfig

def step (s : Controller F) : Act → Option (Controller F)
  | .newRemoteWorkspace c port id token =>
    some ({ s with window := s.window.newRemoteWorkspace c port id token }.connect
      s.window.ids.workspace (AppWindow.fillRelay c port id token))
  | .connect w c => if w < s.window.ids.workspace then some (s.connect w c) else none
  | .disconnectRemote id clear =>
    match id.or s.window.defaultRemote with
    | none => some s
    | some w => some { s.disconnect w with window := s.window.disconnectRemote (some w) clear }
  | .reconnectRemote id =>
    match id.or s.window.defaultRemote with
    | none => some s
    | some w => some ((s.configOf w).elim s (fun c => s.reconnect w c))
  | .removeWorkspaceAt i => s.window.workspaces[i]?.bind (fun ws =>
      (s.window.removeWorkspaceAt i).map (fun aw =>
        { (if ws.remoteConfig.isSome then s.disconnect ws.id else s) with window := aw }))
  | .deliver =>
    match s.queue with
    | [] => none
    | p :: queue => some { s with queue := queue, window := p.update.apply s.window p.ws }
  | .loop l ok => s.loops[l]?.bind (fun x =>
      (s.next x ok).map (fun r => (s.setLoop l r.1).perform l x r.2))
  | .exit c =>
    if s.hasExited c then none
    else if c < s.children.length then
      some { s with children := s.children.modify c (fun y => { y with status := .exited }) }
    else none
  | .broker a => if a.task.isSome then (s.broker.step a).map s.withBroker else none

end Controller

end Limux
