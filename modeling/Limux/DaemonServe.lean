import Limux.DaemonStdioRun

/-! The whole run of the loop on stdin: what it owes at each point, and the number of its
steps. -/
namespace Limux

open Buffered Machine

namespace Daemon

namespace Server

variable {F : Type} {host : Host F} {s s' : Server F}

/-- What a response has to be for its line, whatever else it says. -/
def Answered : Ask F → RpcResponse F → Prop
  | .refused message, resp => resp = .fault .null "invalid_request" message
  | .request req, resp => resp.id = req.id

def take (d : Daemon F) : Option (Ask F) → Daemon F
  | none => d
  | some (.refused message) => d.answer (.fault .null "invalid_request" message)
  | some (.request req) => { d.goto (.handling req) with requests := d.requests ++ [req] }

/-- A step while a line is answered: `handleRequest` with the daemon and the sessions that
are there, and what follows from it; pumps go on. -/
inductive TurnStep (host : Host F) : Daemon F × Sessions → Daemon F × Sessions → Prop
  | handle {d : Daemon F} {sessions : Sessions} {req : RpcRequest F} (now : Text)
      (hl : d.loop = .handling req) :
      TurnStep host (d,sessions)
        (d.handleRequest host.trunc req (answerOther host now sessions req).2,
          (answerOther host now sessions req).1)
  | work {d d' : Daemon F} {sessions : Sessions} {a : Daemon.Act F}
      (ha : works a ∨ a.pump.isSome) (hs : Daemon.step host.trunc d a = some d') :
      TurnStep host (d,sessions) (d',sessions)

/-- Lines with their responses, each answered from where the one before it left the daemon
and the sessions. -/
inductive Turns (host : Host F) : List (Ask F × RpcResponse F) → Daemon F × Sessions → Prop
  | start : Turns host [] (Daemon.init,.init)
  | between {turns : List (Ask F × RpcResponse F)} {p p' : Daemon F × Sessions}
      (h : Turns host turns p) (hl : p.1.loop = .reading) (hs : TurnStep host p p') :
      Turns host turns p'
  | turn {turns : List (Ask F × RpcResponse F)} {p p' : Daemon F × Sessions} {ask : Ask F}
      {resp : RpcResponse F} (h : Turns host turns p) (hl : p.1.loop = .reading)
      (hr : Relation.ReflTransGen (TurnStep host) (take p.1 (some ask),p.2) p')
      (hl' : p'.1.loop = .responding resp) :
      Turns host (turns ++ [(ask,resp)]) (p'.1.writeResponse resp,p'.2)

/-- Where the loop is with the line at hand. -/
def At (l : Loop F) : Ask F → Prop
  | .refused message => l = .responding (.fault .null "invalid_request" message)
  | .request req => l.work = some req.id

theorem At.answered {l : Loop F} {ask : Ask F} {resp : RpcResponse F} (h : At l ask)
    (hl : l = .responding resp) : Answered ask resp := by
  subst hl
  cases ask with
  | refused message => exact Loop.responding.inj h
  | request req => exact Option.some.inj h

theorem not_at {l : Loop F} {ask : Ask F} (h : l.work = none) : ¬ At l ask := by
  intro ha
  cases ask with
  | refused message =>
    rw [At] at ha
    subst ha
    cases h
  | request req =>
    rw [At,h] at ha
    cases ha

theorem work_of_over {l : Loop F} (h : l.over) : l.work = none := by
  cases l with
  | returning | closingAll | ended => rfl
  | _ => cases h

/-- What the loop is at, after these turns. -/
inductive Current (host : Host F) (s : Server F) (turns : List (Ask F × RpcResponse F)) :
    List (Ask F) → Prop
  | reading (ht : Turns host turns (s.daemon,s.sessions)) (h : s.daemon.loop = .reading) :
      Current host s turns []
  | working {p : Daemon F × Sessions} {ask : Ask F} (ht : Turns host turns p)
      (hl : p.1.loop = .reading)
      (hr : Relation.ReflTransGen (TurnStep host) (take p.1 (some ask),p.2)
        (s.daemon,s.sessions))
      (hw : At s.daemon.loop ask) : Current host s turns [ask]
  | finished {p : Daemon F × Sessions} (ht : Turns host turns p) (h : s.daemon.loop.over)
      (hr : s.input.rest = []) : Current host s turns []

/-- All lines so far are answered but the one at hand. -/
structure Serving (host : Host F) (input : List UInt8) (s : Server F) : Prop where
  ok : s.input.Ok bufferSize
  unbroken : s.daemon.broken = false
  ledger : ∃ turns now, asks host input = turns.map Prod.fst ++ now ++ asks host s.input.rest ∧
    Current host s turns now ∧ responses s.daemon.out = turns.map Prod.snd ∧
    ∀ t ∈ turns, Answered t.1 t.2

theorem asks_eq {input : List UInt8} (h : input ≠ []) : asks host input =
    (ask? host (Lines.first newline input).1).toList ++
      asks host (Lines.first newline input).2 := by
  rw [asks,Lines.raw_eq h,List.filterMap_cons]
  cases ask? host (Lines.first newline input).1 with
  | none => rfl
  | some a => rfl

theorem readFrame_eq (h : s.input.Ok bufferSize) (hl : s.daemon.loop = .reading) :
    s.readFrame host = some { s with
      daemon := if s.input.rest = [] then s.daemon.goto .returning
        else take s.daemon (ask? host (Lines.first newline s.input.rest).1)
      input := (readRPCFrame s.input maxRPCFrameBytes).2 } := by
  have hread := (readRPCFrame_eq h maxRPCFrameBytes).1
  unfold readFrame
  generalize readRPCFrame s.input maxRPCFrameBytes = res at hread ⊢
  obtain ⟨read,input⟩ := res
  dsimp only at hread ⊢
  by_cases hnil : s.input.rest = []
  · rw [if_pos hnil]
    rw [hnil] at hread
    rw [hread]
    simp [Lines.first,FrameRead.ofLine,Daemon.step,Daemon.Act.pump,stepLoop,hl]
  · have hne : (Lines.first newline s.input.rest).1 ≠ [] := Lines.first_ne_nil hnil
    rw [if_neg hnil,hread]
    generalize (Lines.first newline s.input.rest).1 = line at hne
    unfold ask?
    by_cases hlt : maxRPCFrameBytes < line.length
    · rw [ofLine_of_lt hlt,if_pos hlt]
      simp [Daemon.step,Daemon.Act.pump,stepLoop,hl,take]
    · rw [ofLine_of_le hlt hne,if_neg hlt]
      dsimp only
      split
      · rfl
      · cases host.parse (trimLine line) with
        | none => simp [Daemon.step,Daemon.Act.pump,stepLoop,hl,take]
        | some req => simp [Daemon.step,Daemon.Act.pump,stepLoop,hl,take]

/-- A step that the loop on stdin leaves to the daemon. -/
inductive RunStep (d d' : Daemon F) (a : Daemon.Act F) : Prop
  | pump (hp : a.pump.isSome) (hl : d'.loop = d.loop)
      (ho : responses d'.out = responses d.out) (hb : d'.broken = d.broken)
      (hw : d'.weight ≤ d.weight)
  | work {id : Json F} (ha : works a) (hp : a.pump = none) (hw : d.loop.work = some id)
      (hn : ∀ resp, d.loop ≠ .responding resp) (h : Stays d d' id)
  | respond {resp : RpcResponse F} (ha : a = .respond) (hl : d.loop = .responding resp)
      (hd : d' = { d.goto .reading with out := d.out ++ [.response resp] })
  | finished (hp : a.pump = none) (hl : d.loop.over) (hl' : d'.loop.over) (ho : d'.out = d.out)
      (hb : d'.broken = d.broken) (hw : d'.weight < d.weight)

theorem runStep {d d' : Daemon F} {a : Daemon.Act F} (hb : d.broken = false) (ha : passes a)
    (hs : Daemon.step host.trunc d a = some d') : RunStep d d' a := by
  cases hk : a.pump with
  | some k =>
    have he := effect_of_step hs
    rw [hk] at he
    obtain ⟨hl,ho,hb,hw⟩ := pump_frame he
    exact .pump (by rw [hk]; rfl) hl ho hb hw
  | none =>
    simp only [Daemon.step,hk] at hs
    by_cases hworks : works a
    · obtain ⟨id,hw,hn,h⟩ := stays_stepLoop hworks hs
      exact .work hworks hk hw hn h
    · cases a with
      | respond =>
        simp only [stepLoop] at hs
        split at hs
        · rename_i resp hl
          cases hs
          refine .respond rfl hl ?_
          simp [writeResponse,hb]
        · cases hs
      | closeAll =>
        simp only [stepLoop] at hs
        split at hs
        · rename_i hl
          cases hs
          refine .finished rfl (by rw [hl]; rfl) rfl rfl rfl ?_
          simp only [Daemon.weight,Daemon.closeAll,hl,Loop.weight,goto,List.length_map]
          exact Nat.lt_of_lt_of_eq (Nat.lt_succ_self _) (by simp; omega)
        · cases hs
      | closeNext =>
        simp only [stepLoop] at hs
        split at hs
        · rename_i hl
          cases hs
          refine .finished rfl (by rw [hl]; rfl) rfl rfl rfl ?_
          simp [Daemon.weight,closeConn,goto,hl,Loop.weight]
        · rename_i hl
          cases hs
          refine .finished rfl (by rw [hl]; rfl) rfl rfl rfl ?_
          simp [Daemon.weight,goto,hl,Loop.weight]
        · cases hs
      | request | refuse | handle | hangUp | breakOutput => cases ha
      | dial | register | deadline | write | finishWrite | close | spawn =>
        exact absurd rfl hworks
      | read | panic | emit | terminate | drop | closePump => cases hk

theorem serving_init {pieces : List (List UInt8)} (hp : ∀ p ∈ pieces, p ≠ []) (eager : Bool) :
    Serving host pieces.flatten (init pieces eager) :=
  ⟨Reader.ok_init hp eager,rfl,[],[],rfl,.reading .start rfl,rfl,fun _ h => nomatch h⟩

variable {turns : List (Ask F × RpcResponse F)} {now : List (Ask F)}

/-- Nothing is at hand while the loop reads, and the daemon is where the turns left it. -/
theorem Current.of_reading (h : Current host s turns now) (hl : s.daemon.loop = .reading) :
    now = [] ∧ Turns host turns (s.daemon,s.sessions) := by
  cases h with
  | reading ht _ => exact ⟨rfl,ht⟩
  | working _ _ _ hw => exact absurd hw (not_at (by rw [hl]; rfl))
  | finished _ h => simp [hl,Loop.over] at h

theorem current_take {line : List UInt8} (hd : s'.daemon = take s.daemon (ask? host line))
    (hse : s'.sessions = s.sessions) (ht : Turns host turns (s.daemon,s.sessions))
    (hl : s.daemon.loop = .reading) : Current host s' turns (ask? host line).toList := by
  cases ha : ask? host line with
  | none =>
    rw [ha] at hd
    have hd' : s'.daemon = s.daemon := hd
    exact .reading (by rw [hd',hse]; exact ht) (by rw [hd']; exact hl)
  | some ask =>
    rw [ha] at hd
    refine .working ht hl (by rw [hd,hse]) ?_
    rw [hd]
    cases ask with
    | refused message => rfl
    | request req => rfl

theorem take_frame (d : Daemon F) (a : Option (Ask F)) :
    (take d a).out = d.out ∧ (take d a).broken = d.broken := by
  cases a with
  | none => exact ⟨rfl,rfl⟩
  | some a => cases a <;> exact ⟨rfl,rfl⟩

theorem Serving.read {input : List UInt8} (h : Serving host input s)
    (hl : s.daemon.loop = .reading) (hs : s.readFrame host = some s') :
    Serving host input s' := by
  obtain ⟨-,hrest,hok⟩ := readRPCFrame_eq h.ok maxRPCFrameBytes
  rw [readFrame_eq h.ok hl] at hs
  obtain ⟨turns,now,hasks,hnow,hout,hall⟩ := h.ledger
  obtain ⟨rfl,ht⟩ := hnow.of_reading hl
  rw [List.append_nil] at hasks
  by_cases hnil : s.input.rest = []
  · rw [if_pos hnil] at hs
    cases hs
    rw [hnil] at hrest
    refine ⟨hok,h.unbroken,turns,[],?_,.finished ht rfl hrest,hout,hall⟩
    rw [hasks,hnil,hrest,List.append_nil]
    rfl
  · rw [if_neg hnil] at hs
    cases hs
    obtain ⟨ho,hbroken⟩ := take_frame s.daemon (ask? host (Lines.first newline s.input.rest).1)
    refine ⟨hok,hbroken.trans h.unbroken,turns,_,?_,current_take rfl rfl ht hl,?_,hall⟩
    · rw [hasks,asks_eq hnil,hrest,List.append_assoc]
    · rw [ho]
      exact hout

theorem Serving.handle {input : List UInt8} {time : Text} (h : Serving host input s)
    (hs : step host s (.handle time) = some s') : Serving host input s' := by
  simp only [step] at hs
  split at hs
  · rename_i req hl
    obtain ⟨d,hd,rfl⟩ := Option.map_eq_some_iff.mp hs
    simp only [Daemon.step,Daemon.Act.pump,stepLoop,hl,Option.some.injEq] at hd
    subst hd
    have hst : Stays s.daemon (s.daemon.handleRequest host.trunc req
        (answerOther host time s.sessions req).2) req.id := stays_handleRequest hl
    obtain ⟨turns,now,hasks,hnow,hout,hall⟩ := h.ledger
    refine ⟨h.ok,hst.broken.trans h.unbroken,turns,now,hasks,?_,by rw [hst.out]; exact hout,hall⟩
    cases hnow with
    | reading _ hr =>
      rw [hl] at hr
      cases hr
    | @working p ask ht hp hr hw =>
      refine .working ht hp (hr.tail (.handle time hl)) ?_
      rw [hl] at hw
      cases ask with
      | refused message => cases hw
      | request req' => exact hst.work.trans hw
    | finished _ hr =>
      rw [hl] at hr
      cases hr
  · cases hs

theorem Serving.run {input : List UInt8} {a : Daemon.Act F} (h : Serving host input s)
    (hs : step host s (.run a) = some s') : Serving host input s' := by
  simp only [step] at hs
  split at hs
  · rename_i hpass
    obtain ⟨d,hd,rfl⟩ := Option.map_eq_some_iff.mp hs
    obtain ⟨turns,now,hasks,hnow,hout,hall⟩ := h.ledger
    cases runStep h.unbroken hpass hd with
    | pump hp hl ho hb hw =>
      have hstep : TurnStep host (s.daemon,s.sessions) (d,s.sessions) := .work (.inr hp) hd
      refine ⟨h.ok,hb.trans h.unbroken,turns,now,hasks,?_,ho.trans hout,hall⟩
      cases hnow with
      | reading ht hr => exact .reading (.between ht hr hstep) (hl.trans hr)
      | working ht hp hr hw => exact .working ht hp (hr.tail hstep) (hl ▸ hw)
      | finished ht hr hi => exact .finished ht (hl ▸ hr) hi
    | @work id ha hp hw hn hst =>
      refine ⟨h.ok,hst.broken.trans h.unbroken,turns,now,hasks,?_,by rw [hst.out]; exact hout,
        hall⟩
      cases hnow with
      | reading _ hr =>
        rw [hr] at hw
        cases hw
      | @working p ask ht hp hr hat =>
        refine .working ht hp (hr.tail (.work (.inl ha) hd)) ?_
        cases ask with
        | refused message => exact absurd hat (hn _)
        | request req => exact hst.work.trans (hw.symm.trans hat)
      | finished _ hr =>
        rw [work_of_over hr] at hw
        cases hw
    | @respond resp ha hl hd' =>
      cases hnow with
      | reading _ hr =>
        rw [hl] at hr
        cases hr
      | @working p ask ht hp hr hat =>
        have hturn := Turns.turn ht hp hr hl
        have hwrite : s.daemon.writeResponse resp = d := by
          rw [hd',writeResponse,if_neg (by rw [h.unbroken]; exact Bool.false_ne_true)]
        rw [hwrite] at hturn
        subst hd'
        refine ⟨h.ok,h.unbroken,turns ++ [(ask,resp)],[],?_,.reading hturn rfl,?_,?_⟩
        · rw [List.append_nil,List.map_append]
          exact hasks
        · rw [responses_append,hout,List.map_append]
          rfl
        · intro t hmem
          rcases List.mem_append.mp hmem with hmem | hmem
          · exact hall t hmem
          · cases List.mem_singleton.mp hmem
            exact hat.answered hl
      | finished _ hr =>
        rw [hl] at hr
        cases hr
    | finished hp hl hl' ho hb hw =>
      cases hnow with
      | finished ht _ hr =>
        exact ⟨h.ok,hb.trans h.unbroken,turns,[],hasks,.finished ht hl' hr,by rw [ho]; exact hout,
          hall⟩
      | reading _ hr =>
        rw [hr] at hl
        cases hl
      | working _ _ _ hat => exact absurd hat (not_at (work_of_over hl))
  · cases hs

theorem Serving.step {input : List UInt8} {a : Act F} (h : Serving host input s)
    (hs : step host s a = some s') : Serving host input s' := by
  cases a with
  | read =>
    simp only [Server.step] at hs
    split at hs
    · exact h.read ‹_› hs
    · cases hs
  | handle now => exact h.handle hs
  | run a => exact h.run hs

/-! The number of steps. -/

def Act.main : Act F → Bool
  | .run a => a.pump.isNone
  | _ => true

def lineCost (host : Host F) (line : List UInt8) : ℕ :=
  match ask? host line with
  | some (.request req) => 7+payloadSize req
  | _ => 2

/-- Steps that the loop may still take. -/
def budget (host : Host F) (s : Server F) : ℕ :=
  ((Lines.raw newline s.input.rest).map (lineCost host)).sum+s.daemon.weight

theorem weight_take {d : Daemon F} (hl : d.loop = .reading) (line : List UInt8) :
    (take d (ask? host line)).weight+1 ≤ d.weight+lineCost host line := by
  unfold lineCost
  cases ask? host line with
  | none => exact Nat.add_le_add_left (Nat.le_succ 1) _
  | some a =>
    cases a with
    | refused message =>
      simp only [take,Daemon.weight,answer,goto,hl,Loop.weight]
      omega
    | request req =>
      simp only [take,Daemon.weight,goto,hl,Loop.weight]
      omega

theorem budget_read (h : s.input.Ok bufferSize) (hl : s.daemon.loop = .reading)
    (hs : s.readFrame host = some s') : s'.budget host+1 ≤ s.budget host := by
  obtain ⟨-,hrest,-⟩ := readRPCFrame_eq h maxRPCFrameBytes
  rw [readFrame_eq h hl] at hs
  by_cases hnil : s.input.rest = []
  · rw [if_pos hnil] at hs
    cases hs
    rw [hnil] at hrest
    simp only [budget,hrest,hnil,Lines.first,Lines.raw_nil,Daemon.weight,goto,hl,Loop.weight]
    omega
  · rw [if_neg hnil] at hs
    cases hs
    have : (take s.daemon (ask? host (Lines.first newline s.input.rest).1)).weight+1 ≤ _ :=
      weight_take hl _
    rw [budget,budget,hrest,Lines.raw_eq hnil,List.map_cons,List.sum_cons]
    dsimp only
    omega

theorem budget_step {input : List UInt8} {a : Act F} (h : Serving host input s)
    (hs : step host s a = some s') :
    s'.budget host+(if a.main then 1 else 0) ≤ s.budget host := by
  cases a with
  | read =>
    simp only [Server.step] at hs
    split at hs
    · exact budget_read h.ok ‹_› hs
    · cases hs
  | handle now =>
    simp only [Server.step] at hs
    split at hs
    · rename_i req hl
      obtain ⟨d,hd,rfl⟩ := Option.map_eq_some_iff.mp hs
      have hst : Stays s.daemon d req.id := by
        simp only [Daemon.step,Daemon.Act.pump,stepLoop,hl,Option.some.injEq] at hd
        exact hd ▸ stays_handleRequest hl
      exact Nat.add_lt_add_left hst.lighter _
    · cases hs
  | run a =>
    simp only [Server.step] at hs
    split at hs
    · rename_i hpass
      obtain ⟨d,hd,rfl⟩ := Option.map_eq_some_iff.mp hs
      cases runStep h.unbroken hpass hd with
      | pump hp hl ho hb hw =>
        have hm : (Act.run a).main = false := by simpa [Act.main] using hp
        rw [hm]
        exact Nat.add_le_add_left hw _
      | work ha hp hw hn hst =>
        have hm : (Act.run a).main = true := by simp [Act.main,hp]
        rw [hm]
        exact Nat.add_lt_add_left hst.lighter _
      | respond ha hl he =>
        subst ha he
        refine Nat.add_lt_add_left ?_ _
        simp [Daemon.weight,goto,hl,Loop.weight]
      | finished hp hl hl' ho hb hw =>
        have hm : (Act.run a).main = true := by simp [Act.main,hp]
        rw [hm]
        exact Nat.add_lt_add_left hw _
    · cases hs

theorem progress (h : s.input.Ok bufferSize) (hl : s.daemon.loop ≠ .ended) :
    ∃ a : Act F, a.main ∧ (step host s a).isSome := by
  cases hloop : s.daemon.loop with
  | reading => exact ⟨.read,rfl,by simp [step,hloop,readFrame_eq h hloop]⟩
  | handling req =>
    exact ⟨.handle [],rfl,by simp [step,hloop,Daemon.step,Daemon.Act.pump,stepLoop]⟩
  | dialing id host port =>
    exact ⟨.run (.dial none),rfl,by simp [step,passes,hloop,Daemon.step,Daemon.Act.pump,stepLoop]⟩
  | dialed id =>
    exact ⟨.run .register,rfl,by simp [step,passes,hloop,Daemon.step,Daemon.Act.pump,stepLoop]⟩
  | closing conn resp =>
    exact ⟨.run .close,rfl,by simp [step,passes,hloop,Daemon.step,Daemon.Act.pump,stepLoop]⟩
  | writing id conn payload total =>
    by_cases ht : total < payload.length
    · refine ⟨.run (.write (payload.length-total) none),rfl,?_⟩
      have hle : total+(payload.length-total) ≤ payload.length := by omega
      simp [step,passes,hloop,Daemon.step,Daemon.Act.pump,stepLoop,ht,hle]
    · refine ⟨.run .finishWrite,rfl,?_⟩
      simp [step,passes,hloop,Daemon.step,Daemon.Act.pump,stepLoop,Nat.le_of_not_lt ht]
  | spawning stream conn resp =>
    exact ⟨.run .spawn,rfl,by simp [step,passes,hloop,Daemon.step,Daemon.Act.pump,stepLoop]⟩
  | responding resp =>
    exact ⟨.run .respond,rfl,by simp [step,passes,hloop,Daemon.step,Daemon.Act.pump,stepLoop]⟩
  | returning =>
    exact ⟨.run .closeAll,rfl,by simp [step,passes,hloop,Daemon.step,Daemon.Act.pump,stepLoop]⟩
  | closingAll conns =>
    cases conns with
    | nil =>
      exact ⟨.run .closeNext,rfl,
        by simp [step,passes,hloop,Daemon.step,Daemon.Act.pump,stepLoop]⟩
    | cons conn conns =>
      exact ⟨.run .closeNext,rfl,
        by simp [step,passes,hloop,Daemon.step,Daemon.Act.pump,stepLoop]⟩
  | ended => exact absurd hloop hl

/-- Whatever the reads deliver, and whatever the pumps write in between: the lines of the
input are answered in order, those that are blank not at all, each from where the one before
it left the daemon and the sessions; the loop can go on until it has returned, and then all
are answered; and its steps are bounded. -/
theorem lines_answered (host : Host F) {pieces : List (List UInt8)}
    (hp : ∀ p ∈ pieces, p ≠ []) (eager : Bool) :
    (∀ s, Reach (step host) anyStep (init pieces eager) s →
      (∃ turns todo p, asks host pieces.flatten = turns.map Prod.fst ++ todo ∧
        Turns host turns p ∧ (s.daemon.loop = .reading → p = (s.daemon,s.sessions)) ∧
        responses s.daemon.out = turns.map Prod.snd ∧ (∀ t ∈ turns, Answered t.1 t.2) ∧
        (s.daemon.loop = .ended → todo = [])) ∧
      (s.daemon.loop ≠ .ended → ∃ a : Act F, a.main ∧ (step host s a).isSome)) ∧
    ∃ bound, ∀ acts s, run (step host) anyStep (init pieces eager) acts = some s →
      (acts.filter Act.main).length ≤ bound := by
  have h₀ : Serving host pieces.flatten (init pieces eager) := serving_init hp eager
  refine ⟨fun s hr => ?_,(init pieces eager).budget host,fun acts s hrun => ?_⟩
  · have h : Serving host pieces.flatten s := hr.inv h₀ (fun _ _ _ h _ hs => h.step hs)
    refine ⟨?_,progress h.ok⟩
    obtain ⟨turns,now,hasks,hnow,hout,hall⟩ := h.ledger
    rw [List.append_assoc] at hasks
    cases hnow with
    | reading ht hl =>
      refine ⟨turns,_,_,hasks,ht,fun _ => rfl,hout,hall,fun he => ?_⟩
      rw [hl] at he
      cases he
    | working ht _ _ hat =>
      refine ⟨turns,_,_,hasks,ht,fun he => ?_,hout,hall,fun he => ?_⟩
      · exact absurd hat (not_at (by rw [he]; rfl))
      · exact absurd hat (not_at (by rw [he]; rfl))
    | finished ht hl hrest =>
      refine ⟨turns,_,_,hasks,ht,fun he => ?_,hout,hall,fun _ => by rw [hrest]; rfl⟩
      rw [he] at hl
      cases hl
  · have := length_main_of_run (P := Serving host pieces.flatten) (budget host) Act.main
      (fun _ _ _ h hs => h.step hs) (fun _ _ _ h hs => budget_step h hs) acts h₀ hrun
    omega

/-- A parser of three lines: `o` opens a session, `s` asks for its status, and a dash is no
request. -/
def sessionHost : Host Unit :=
  ⟨fun _ => none,
    fun line => if line = [45] then none else some ⟨.null,
      (if line = [111] then "session.open" else "session.status").toList,
      [("session_id",.str "a".toList)]⟩,
    fun t => t,"dev".toList⟩

/-- A line in two pieces, a blank one, one that is no request, and one that is about what
the first did. -/
def sessionPieces : List (List UInt8) := [[111],[10,13],[10,45,10],[115]]

def sessionActs : List (Act Unit) :=
  [.read,.handle [],.run .respond,.read,.read,.run .respond,.read,.handle [],.run .respond,
    .read,.run .closeAll,.run .closeNext]

theorem lines_answered_session : ∃ s : Server Unit,
    Reach (step sessionHost) anyStep (init sessionPieces false) s ∧ s.daemon.loop = .ended ∧
      (responses s.daemon.out).map (fun r => r.result.toOption.isSome) = [true,false,true] ∧
      ∃ turns todo p, asks sessionHost sessionPieces.flatten = turns.map Prod.fst ++ todo ∧
        Turns sessionHost turns p ∧
        (s.daemon.loop = .reading → p = (s.daemon,s.sessions)) ∧
        responses s.daemon.out = turns.map Prod.snd ∧ (∀ t ∈ turns, Answered t.1 t.2) ∧
        (s.daemon.loop = .ended → todo = []) := by
  refine ⟨_,reach_of_run sessionActs rfl,rfl,rfl,?_⟩
  exact ((lines_answered sessionHost (by decide) false).1 _ (reach_of_run sessionActs rfl)).1

end Server

end Daemon

end Limux
