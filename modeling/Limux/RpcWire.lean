import Limux.RpcMatch

/-! What the daemon reads: as long as no call is dropped in the middle of its line, the
pipe takes whole request lines, one call after the other. -/
namespace Limux

open Machine

namespace Rpc

variable {F : Type} {env : RpcEnv F} {s s' : Rpc F} {a : Act F}

/-- The whole line is in the pipe, or the call is over. -/
def CallPhase.Sent : CallPhase F → Prop
  | .writing rest => rest = []
  | .awaiting | .expiring | .returned _ | .dropped => True
  | .registering | .locking => False

def lineOf (s : Rpc F) (k : CallIx) : List UInt8 := (s.calls[k]?.map Call.line).getD []

/-- A call is dropped before its line was begun or after it was written, unless the pipe
is broken. -/
def NoTear (s : Rpc F) : Act F → Prop
  | .drop k => ∀ x ∈ s.calls[k]?,
    match x.phase with
    | .writing rest => s.broken = true ∨ rest = [] ∨ rest = x.line
    | _ => True
  | _ => True

/-- Part of a line in the pipe, of a call that is writing the rest or was cut off by a
broken pipe. -/
def Unfinished (s : Rpc F) (tail : List UInt8) : Prop :=
  ∃ (k : CallIx) (x : Call F) (rest : List UInt8), s.calls[k]? = some x ∧ rest ≠ [] ∧ tail ++ rest = x.line ∧
    (x.phase = .writing rest ∨ s.broken = true)

/-- Whole lines of different calls, and at most a part of one more. -/
def WireFramed (s : Rpc F) (ks : List CallIx) (tail : List UInt8) : Prop :=
  ks.Nodup ∧ (∀ k ∈ ks, ∃ x : Call F, s.calls[k]? = some x ∧ x.phase.Sent) ∧
    s.wire = ks.flatMap s.lineOf ++ tail ∧ (tail = [] ∨ s.Unfinished tail)

def Idle (s : Rpc F) : Prop := ∀ (k : CallIx) (x : Call F) (rest : List UInt8), s.calls[k]? = some x →
  x.phase = .writing rest → rest = x.line ∨ rest = []

/-- Whole lines, and at most a part of the line of the call that is writing. -/
def Wired (s : Rpc F) : Prop := ∃ (ks : List CallIx) (tail : List UInt8), ks.Nodup ∧
  (∀ k ∈ ks, ∃ x : Call F, s.calls[k]? = some x ∧ x.phase.Sent) ∧
  s.wire = ks.flatMap s.lineOf ++ tail ∧ (tail = [] ∧ s.Idle ∨ s.Unfinished tail)

structure Framed (s : Rpc F) : Prop where
  lines : ∀ (k : CallIx) (x : Call F), s.calls[k]? = some x → ∃ body, x.line = body ++ [10] ∧ 10 ∉ body
  holder : ∀ (k : CallIx) (x : Call F) (rest : List UInt8), s.calls[k]? = some x → x.phase = .writing rest →
    s.stdin = some k
  wire : Wired s

theorem step_back (hs : Step env s a s') {k : CallIx} {x' : Call F} (hx' : s'.calls[k]? = some x') :
    (x'.phase = .registering ∧ ∃ body, x'.line = body ++ [10] ∧ 10 ∉ body) ∨
    ∃ x, s.calls[k]? = some x ∧ x'.line = x.line ∧
      (x'.phase = x.phase ∨ Moves s a k x x'.phase) := by
  cases step_call hs hx' with
  | new ha hk => exact .inl ⟨rfl,_,rfl,env.render_clean _⟩
  | same hx => exact .inr ⟨x',hx,rfl,.inl rfl⟩
  | @move x p hx hm => exact .inr ⟨x,hx,rfl,.inr hm⟩
  | @send x r hx hm => exact .inr ⟨x,hx,rfl,.inl rfl⟩

theorem step_forth (hs : Step env s a s') {k : CallIx} {x : Call F} (hx : s.calls[k]? = some x) :
    ∃ x', s'.calls[k]? = some x' ∧ x'.line = x.line ∧
      (x'.phase = x.phase ∨ Moves s a k x x'.phase) := by
  obtain ⟨x',hx'⟩ := step_calls hs hx
  refine ⟨x',hx',?_⟩
  cases step_call hs hx' with
  | new ha hk =>
    rw [hk,List.getElem?_eq_none le_rfl] at hx
    cases hx
  | same hy =>
    rw [hx] at hy
    cases hy
    exact ⟨rfl,.inl rfl⟩
  | move hy hm =>
    rw [hx] at hy
    cases hy
    exact ⟨rfl,.inr hm⟩
  | send hy hm =>
    rw [hx] at hy
    cases hy
    exact ⟨rfl,.inl rfl⟩

theorem lineOf_some {k : CallIx} {x : Call F} (hx : s.calls[k]? = some x) : s.lineOf k = x.line := by
  rw [lineOf,hx]
  rfl

theorem moves_sent {k : CallIx} {x : Call F} {p : CallPhase F} (hm : Moves s a k x p)
    (hx : x.phase.Sent) : p.Sent := by
  cases hm with
  | register hp | lock hp hl =>
    rw [hp] at hx
    exact hx.elim
  | write hp hb hn hr =>
    rw [hp] at hx
    rw [show _ = [] from hx] at hr
    exact absurd hr (Nat.not_le.mpr hn)
  | flush hp => trivial
  | fail hp hr hb => trivial
  | finish hp hr => trivial
  | timeout hp hr => trivial
  | expire hp => trivial
  | drop hr hd => trivial

theorem sent_step (hs : Step env s a s') {ks : List CallIx}
    (h : ∀ k ∈ ks, ∃ x, s.calls[k]? = some x ∧ x.phase.Sent) :
    (∀ k ∈ ks, ∃ x, s'.calls[k]? = some x ∧ x.phase.Sent) ∧
    ks.flatMap s'.lineOf = ks.flatMap s.lineOf := by
  constructor
  · intro k hk
    obtain ⟨x,hx,hsent⟩ := h k hk
    obtain ⟨x',hx',-,hp | hm⟩ := step_forth hs hx
    · exact ⟨x',hx',hp ▸ hsent⟩
    · exact ⟨x',hx',moves_sent hm hsent⟩
  · apply List.flatMap_congr
    intro k hk
    obtain ⟨x,hx,-⟩ := h k hk
    obtain ⟨x',hx',hl,-⟩ := step_forth hs hx
    rw [lineOf_some hx,lineOf_some hx',hl]

/-- The lock changes hands only between calls. -/
theorem step_stdin (hs : Step env s a s') {k : CallIx} {x' : Call F} {rest : List UInt8}
    (hx' : s'.calls[k]? = some x') (hp : x'.phase = .writing rest) (hk : s.stdin = some k) :
    s'.stdin = some k := by
  -- the call that lets go of the lock is not writing any more
  have hunlock : ∀ {j : CallIx} {p : CallPhase F}, (∀ rest, p ≠ .writing rest) →
      ((s.setPhase j p).unlock j).calls[k]? = some x' → ((s.setPhase j p).unlock j).stdin = some k := by
    intro j p hne h
    rw [unlock_calls] at h
    obtain ⟨x,hx,⟨rfl,rfl⟩ | ⟨hkj,rfl⟩⟩ := getElem?_modify_cases h
    · exact absurd hp (hne rest)
    · rw [unlock,if_neg]
      · exact hk
      · intro hj
        exact hkj (Option.some.inj (hk.symm.trans hj))
  cases hs with
  | lock hx hp' hl =>
    rw [hl] at hk
    cases hk
  | flush hx hp' => exact hunlock (by simp) hx'
  | fail hx hp' hr hb => exact hunlock (by simp) hx'
  | drop hx hr hd => exact hunlock (by simp) hx'
  | @route n m hr =>
    cases m with
    | skip => exact hk
    | event e =>
      simp only [deliver]
      split <;> exact hk
    | response id result =>
      simp only [deliver]
      split <;> exact hk
  | call method params | register hx hp' | write hx hp' hb hn hr | finish hx hp' hr
  | timeout hx hp' hr | expire hx hp' | breakPipe | receive hr | eof hr | drain hr
  | subscribe stream | unsubscribe stream => exact hk

theorem step_wire (hs : Step env s a s') (ha : ∀ k n, a ≠ .write k n) :
    s'.wire = s.wire ∧ (s.broken = true → s'.broken = true) := by
  cases hs with
  | write hx hp hb hn hr => exact absurd rfl (ha _ _)
  | breakPipe => exact ⟨rfl,fun _ => rfl⟩
  | flush hx hp | fail hx hp hr hb | drop hx hr hd =>
    rw [(unlock_wire _ _).1,(unlock_wire _ _).2]
    exact ⟨rfl,id⟩
  | @route n m hr =>
    cases m with
    | skip => exact ⟨rfl,id⟩
    | event e =>
      simp only [deliver]
      split <;> exact ⟨rfl,id⟩
    | response id' result =>
      simp only [deliver]
      split <;> exact ⟨rfl,id⟩
  | call method params | register hx hp | lock hx hp hl | finish hx hp hr | timeout hx hp hr
  | expire hx hp | receive hr | eof hr | drain hr | subscribe stream | unsubscribe stream =>
    exact ⟨rfl,id⟩

/-- A call that is writing after a step was writing before it, or has just taken the lock. -/
theorem writing_step (hs : Step env s a s') (ha : ∀ k n, a ≠ .write k n) {k : CallIx}
    {x' : Call F} {rest : List UInt8} (hx' : s'.calls[k]? = some x')
    (hp : x'.phase = .writing rest) :
    (∃ x, s.calls[k]? = some x ∧ x'.line = x.line ∧ x.phase = .writing rest) ∨
    (s.stdin = none ∧ rest = x'.line) := by
  rcases step_back hs hx' with ⟨hr,-⟩ | ⟨x,hx,hl,hsame | hm⟩
  · rw [hp] at hr
    cases hr
  · exact .inl ⟨x,hx,hl,hsame ▸ hp⟩
  · rw [hp] at hm
    cases hm with
    | lock hph hst => exact .inr ⟨hst,hl.symm⟩
    | write hph hb hn hr => exact absurd rfl (ha _ _)

theorem Framed.holder_step (h : Framed s) (hs : Step env s a s') {k : CallIx} {x' : Call F}
    {rest : List UInt8} (hx' : s'.calls[k]? = some x') (hp : x'.phase = .writing rest) :
    s'.stdin = some k := by
  rcases step_back hs hx' with ⟨hr,-⟩ | ⟨x,hx,hl,hsame | hm⟩
  · rw [hp] at hr
    cases hr
  · exact step_stdin hs hx' hp (h.holder k x rest hx (hsame ▸ hp))
  · have hp' := hp
    rw [hp] at hm
    cases hm with
    | lock hph hst =>
      cases hs with
      | lock hy hph' hl' => rfl
    | write hph hb hn hr => exact step_stdin hs hx' hp' (h.holder k x _ hx hph)

theorem Framed.write (h : Framed s) {k : CallIx} {x : Call F} {rest : List UInt8} {n : ℕ}
    (hx : s.calls[k]? = some x) (hp : x.phase = .writing rest) (hb : s.broken = false)
    (hn : 0 < n) (hr : n ≤ rest.length) (hs : Step env s (.write k n) s')
    (hs' : s' = { s.setPhase k (.writing (rest.drop n)) with wire := s.wire ++ rest.take n }) :
    Wired s' := by
  obtain ⟨ks,tail,hnd,hsent,hw,ht⟩ := h.wire
  have hne : rest ≠ [] := by
    rintro rfl
    exact absurd hr (Nat.not_le.mpr hn)
  -- the part of the line that is in the pipe is what is missing in the rest
  have htail : tail ++ rest = x.line := by
    rcases ht with ⟨rfl,hidle⟩ | ⟨k',y,r,hy,hre,hl,hph | hbr⟩
    · exact (hidle k x rest hx hp).resolve_right hne
    · have hk : k' = k := Option.some.inj ((h.holder k' y r hy hph).symm.trans (h.holder k x rest hx hp))
      subst hk
      rw [hx] at hy
      cases hy
      rw [hp] at hph
      cases hph
      exact hl
    · rw [hb] at hbr
      cases hbr
  obtain ⟨hsent',hlines⟩ := sent_step hs hsent
  have hcalls : s'.calls = s.calls.modify k (fun x => { x with phase := .writing (rest.drop n) }) := by
    rw [hs']
    rfl
  have hx' : s'.calls[k]? = some { x with phase := .writing (rest.drop n) } := by
    rw [hcalls,List.getElem?_modify_eq,hx]
    rfl
  have hwire : s'.wire = ks.flatMap s'.lineOf ++ (tail ++ rest.take n) := by
    rw [hlines,← List.append_assoc,← hw,hs']
  by_cases hd : rest.drop n = []
  · have htake : rest.take n = rest := by
      rw [List.drop_eq_nil_iff] at hd
      exact List.take_of_length_le hd
    refine ⟨ks ++ [k],[],?_,?_,?_,.inl ⟨rfl,?_⟩⟩
    · rw [List.nodup_append]
      refine ⟨hnd,List.nodup_singleton k,?_⟩
      rintro j hj _ hk rfl
      rw [List.mem_singleton.mp hk] at hj
      obtain ⟨y,hy,hys⟩ := hsent k hj
      rw [hx] at hy
      cases hy
      rw [hp] at hys
      exact hne hys
    · intro j hj
      rcases List.mem_append.mp hj with hj | hj
      · exact hsent' j hj
      · rw [List.mem_singleton.mp hj]
        exact ⟨_,hx',hd⟩
    · rw [hwire,htake,htail,List.append_nil,List.flatMap_append,List.flatMap_singleton,
        lineOf_some hx']
    · intro j y r hy hph
      rw [hcalls] at hy
      obtain ⟨z,hz,⟨rfl,rfl⟩ | ⟨hj,rfl⟩⟩ := getElem?_modify_cases hy
      · cases hph
        exact .inr hd
      · exact absurd (Option.some.inj ((h.holder j y r hz hph).symm.trans
          (h.holder k x rest hx hp))) hj
  · refine ⟨ks,tail ++ rest.take n,hnd,hsent',hwire,.inr ⟨k,_,rest.drop n,hx',hd,?_,.inl rfl⟩⟩
    rw [List.append_assoc,List.take_append_drop]
    exact htail

theorem Framed.step (h : Framed s) (hok : NoTear s a) (hs : Step env s a s') : Framed s' := by
  refine ⟨fun k x' hx' => ?_,fun k x' rest hx' hp => h.holder_step hs hx' hp,?_⟩
  · rcases step_back hs hx' with ⟨-,hb⟩ | ⟨x,hx,hl,-⟩
    · exact hb
    · rw [hl]
      exact h.lines k x hx
  by_cases ha : ∀ k n, a ≠ .write k n
  swap
  · push Not at ha
    obtain ⟨k,n,rfl⟩ := ha
    have hs' := hs
    cases hs with
    | write hx hp hb hn hr => exact h.write hx hp hb hn hr hs' rfl
  obtain ⟨ks,tail,hnd,hsent,hw,ht⟩ := h.wire
  obtain ⟨hsent',hlines⟩ := sent_step hs hsent
  obtain ⟨hwire,hbr⟩ := step_wire hs ha
  refine ⟨ks,tail,hnd,hsent',by rw [hwire,hw,hlines],?_⟩
  rcases ht with ⟨rfl,hidle⟩ | ⟨k,x,rest,hx,hne,hl,hph⟩
  · refine .inl ⟨rfl,fun k x' rest hx' hp => ?_⟩
    rcases writing_step hs ha hx' hp with ⟨x,hx,hl,hp⟩ | ⟨-,hr⟩
    · rw [hl]
      exact hidle k x rest hx hp
    · exact .inl hr
  · obtain ⟨x',hx',hl',hsame | hm⟩ := step_forth hs hx
    · exact .inr ⟨k,x',rest,hx',hne,hl.trans hl'.symm,hph.imp (hsame.trans ·) hbr⟩
    · rcases hph with hph | hb
      swap
      · exact .inr ⟨k,x',rest,hx',hne,hl.trans hl'.symm,.inr (hbr hb)⟩
      have hover : s.broken = true ∨ rest = x.line ∧ a = .drop k ∧ x'.phase = .dropped := by
        generalize x'.phase = p at hm
        cases hm with
        | fail hp hr hb => exact .inl hb
        | drop hr hd =>
          have := hok x hx
          rw [hph] at this
          rcases this with hb | hr | hr
          · exact .inl hb
          · exact absurd hr hne
          · exact .inr ⟨hr,rfl,rfl⟩
        | write hp hb hn hr => exact absurd rfl (ha _ _)
        | flush hp =>
          rw [hph] at hp
          cases hp
          exact absurd rfl hne
        | register hp | lock hp hst | finish hp hr | timeout hp hr | expire hp =>
          rw [hph] at hp
          cases hp
      rcases hover with hb | ⟨hr,rfl,hd⟩
      · exact .inr ⟨k,x',rest,hx',hne,hl.trans hl'.symm,.inr (hbr hb)⟩
      · -- nothing of the line was written; nobody else can be writing
        have htail : tail = [] := by
          have := congrArg List.length hl
          rw [List.length_append,hr] at this
          exact List.length_eq_zero_iff.mp (by omega)
        refine .inl ⟨htail,fun j y r hy hp => ?_⟩
        rcases writing_step hs ha hy hp with ⟨z,hz,-,hzp⟩ | ⟨hst,-⟩
        · have hjk : j = k := Option.some.inj
            ((h.holder j z r hz hzp).symm.trans (h.holder k x rest hx hph))
          subst hjk
          rw [hx'] at hy
          cases hy
          rw [hd] at hp
          cases hp
        · rw [h.holder k x rest hx hph] at hst
          cases hst

/-- Requests end with a line break and have no other. -/
def LinesOk (s : Rpc F) : Prop := ∀ (k : CallIx) (x : Call F), s.calls[k]? = some x →
  ∃ body, x.line = body ++ [10] ∧ 10 ∉ body

/-- The records the daemon reads are the requests; an unfinished one is the tail. -/
theorem cut_wire (h : LinesOk s) {ks : List CallIx} {tail : List UInt8}
    (hw : WireFramed s ks tail) :
    Lines.cut 10 s.wire = (ks.map (fun k => (s.lineOf k).dropLast),tail) := by
  obtain ⟨-,hsent,hwire,ht⟩ := hw
  have hbody : ∀ k ∈ ks, s.lineOf k = (s.lineOf k).dropLast ++ [10] ∧
      10 ∉ (s.lineOf k).dropLast := by
    intro k hk
    obtain ⟨x,hx,-⟩ := hsent k hk
    obtain ⟨body,hl,hc⟩ := h k x hx
    rw [lineOf_some hx,hl,List.dropLast_concat]
    exact ⟨rfl,hc⟩
  have hjoin : ks.flatMap s.lineOf = Lines.join 10 (ks.map (fun k => (s.lineOf k).dropLast)) := by
    rw [Lines.join,List.flatMap_map]
    exact List.flatMap_congr fun k hk => (hbody k hk).1
  have htail : 10 ∉ tail := by
    rcases ht with rfl | ⟨k,x,rest,hx,hne,hl,-⟩
    · exact List.not_mem_nil
    · obtain ⟨body,hb,hc⟩ := h k x hx
      rw [hb,← List.dropLast_append_getLast hne,← List.append_assoc] at hl
      rw [← (List.append_inj' hl rfl).1] at hc
      exact fun hm => hc (List.mem_append_left _ hm)
  rw [hwire,hjoin,Lines.cut_join,Lines.complete,Lines.rest,Lines.cut_of_notMem htail,
    List.append_nil]
  intro l hl
  obtain ⟨k,hk,rfl⟩ := List.mem_map.mp hl
  exact (hbody k hk).2

theorem framed_init : Framed (init : Rpc F) where
  lines _ _ h := by cases h
  holder _ _ _ h := by cases h
  wire := ⟨[],[],List.nodup_nil,fun _ h => (List.not_mem_nil h).elim,rfl,
    .inl ⟨rfl,fun _ _ _ h => by cases h⟩⟩

theorem Framed.wireFramed (h : Framed s) : ∃ ks tail, WireFramed s ks tail := by
  obtain ⟨ks,tail,hnd,hsent,hw,ht⟩ := h.wire
  exact ⟨ks,tail,hnd,hsent,hw,ht.imp_left And.left⟩

/-- A drop in the middle of a line leaves a part of it in the pipe for good. -/
theorem Framed.torn (h : Framed s) {k : CallIx} (hs : Step env s (.drop k) s')
    (hno : ¬ NoTear s (.drop k)) (ks : List CallIx) (tail : List UInt8) :
    ¬ WireFramed s' ks tail := by
  intro hw'
  obtain ⟨x,hx,rest,hp,hb,hne,hnl⟩ : ∃ x, s.calls[k]? = some x ∧ ∃ rest, x.phase = .writing rest ∧
      s.broken = false ∧ rest ≠ [] ∧ rest ≠ x.line := by
    by_contra hc
    refine hno fun x hx => ?_
    split
    · rename_i rest hp
      by_contra hcon
      push Not at hcon
      exact hc ⟨x,hx,rest,hp,by simpa using hcon.1,hcon.2.1,hcon.2.2⟩
    · trivial
  obtain ⟨ks₀,tail₀,hnd,hsent,hw,ht⟩ := h.wire
  have htail₀ : tail₀ ≠ [] := by
    rcases ht with ⟨-,hidle⟩ | ⟨j,y,r,hy,-,hl,hph | hbr⟩
    · exact absurd (hidle k x rest hx hp) (not_or.mpr ⟨hnl,hne⟩)
    · have hj : j = k := Option.some.inj
        ((h.holder j y r hy hph).symm.trans (h.holder k x rest hx hp))
      subst hj
      rw [hx] at hy
      cases hy
      rw [hp] at hph
      cases hph
      rintro rfl
      exact hnl hl
    · rw [hb] at hbr
      cases hbr
  have hcut := cut_wire h.lines ⟨hnd,hsent,hw,ht.imp_left And.left⟩
  have hnw : ∀ k' n, (.drop k : Act F) ≠ .write k' n := by simp
  have hlines' : LinesOk s' := by
    intro j y hy
    rcases step_back hs hy with ⟨-,hbody⟩ | ⟨z,hz,hl,-⟩
    · exact hbody
    · rw [hl]
      exact h.lines j z hz
  have hcut' := cut_wire hlines' hw'
  rw [(step_wire hs hnw).1,hcut] at hcut'
  have htail : tail ≠ [] := (Prod.mk.inj hcut').2 ▸ htail₀
  -- the unfinished line has no writer
  rcases hw'.2.2.2 with rfl | ⟨j,y,r,hy,-,-,hph⟩
  · exact htail rfl
  rcases hph with hph | hbr
  · rcases writing_step hs hnw hy hph with ⟨z,hz,-,hzp⟩ | ⟨hst,-⟩
    · have hj : j = k := Option.some.inj
        ((h.holder j z r hz hzp).symm.trans (h.holder k x rest hx hp))
      subst hj
      cases hs with
      | drop hx' hr hd =>
        rw [unlock_calls,setPhase,List.getElem?_modify_eq,hx'] at hy
        cases hy
        cases hph
    · rw [h.holder k x rest hx hp] at hst
      cases hst
  · cases hs with
    | drop hx' hr hd =>
      rw [(unlock_wire _ _).2] at hbr
      exact absurd (hb.symm.trans hbr) (by simp)

/-- As long as no call is dropped in the middle of its line, the bytes in the pipe are
whole requests of different calls and a part of at most one, which its call is still
writing or the broken pipe cut off; the first drop in the middle of a line ends that. -/
theorem requests_framed (h : Reach (step env) NoTear init s) :
    (∃ ks tail, WireFramed s ks tail ∧
      Lines.complete 10 s.wire = ks.map (fun k => (s.lineOf k).dropLast)) ∧
    ∀ k s', step env s (.drop k) = some s' →
      ((∃ ks tail, WireFramed s' ks tail) ↔ NoTear s (.drop k)) := by
  have hf : Framed s := h.inv framed_init (fun _ _ _ h hok hs => h.step hok (step_sound hs))
  refine ⟨?_,fun k s' hs => ⟨fun hw => ?_,fun hok => ?_⟩⟩
  · obtain ⟨ks,tail,hw⟩ := hf.wireFramed
    exact ⟨ks,tail,hw,congrArg Prod.fst (cut_wire hf.lines hw)⟩
  · by_contra hno
    obtain ⟨ks,tail,hw⟩ := hw
    exact hf.torn (step_sound hs) hno ks tail hw
  · exact (hf.step hok (step_sound hs)).wireFramed

instance (s : Rpc F) (a : Act F) : Decidable (NoTear s a) :=
  match a with
  | .drop _ => @Option.decidableForallMem _ _ (fun x => match x.phase with
      | .writing _ => inferInstanceAs (Decidable (_ ∨ _ ∨ _))
      | .registering | .locking | .awaiting | .expiring | .returned _ | .dropped =>
        .isTrue trivial) _
  | .call _ _ | .register _ | .lock _ | .write _ _ | .flush _ | .fail _ | .finish _ | .timeout _
  | .expire _ | .breakPipe | .receive _ | .route | .eof | .drain | .subscribe _
  | .unsubscribe _ => .isTrue trivial

def twoCallActs : List (Act Unit) :=
  [.call "ping".toList (.obj []),.call "ping".toList (.obj []),.register 0,.register 1,.lock 0,
    .drop 0,.lock 1,.write 1 10,.write 1 43,.flush 1]

theorem requests_framed_ping : ∃ s, run (step plainEnv) NoTear init twoCallActs = some s ∧
    s.wire.length = 53 ∧ ∃ ks tail, WireFramed s ks tail ∧
      Lines.complete 10 s.wire = ks.map (fun k => (s.lineOf k).dropLast) := by
  refine ⟨_,rfl,rfl,?_⟩
  have hr : Reach (step plainEnv) NoTear init _ := reach_of_run twoCallActs rfl
  exact (requests_framed hr).1

theorem linesOk_reach (h : Reach (step env) anyStep init s) : LinesOk s := by
  refine h.inv (P := LinesOk) (fun _ _ h => by cases h) ?_
  intro s a s' hl _ hs k x' hx'
  rcases step_back (step_sound hs) hx' with ⟨-,hb⟩ | ⟨x,hx,hlx,-⟩
  · exact hb
  · rw [hlx]
    exact hl k x hx

def tornActs : List (Act Unit) :=
  [.call "ping".toList (.obj []),.call "ping".toList (.obj []),.register 0,.register 1,.lock 0,
    .write 0 10,.drop 0,.lock 1,.write 1 53,.flush 1]

/-- The daemon reads one record, made of the beginning of the first request and the
second one. -/
theorem dropped_call_tears_line : ∃ s, Reach (step plainEnv) anyStep init s ∧ s.broken = false ∧
    Lines.complete 10 s.wire = [(s.lineOf 0).take 10 ++ (s.lineOf 1).dropLast] ∧
    ∀ ks tail, ¬ WireFramed s ks tail := by
  refine ⟨_,reach_of_run tornActs rfl,rfl,rfl,fun ks tail hw => ?_⟩
  have hr : Reach (step plainEnv) anyStep init _ := reach_of_run tornActs rfl
  have hcut := congrArg Prod.fst (cut_wire (linesOk_reach hr) hw)
  obtain ⟨k,rfl⟩ : ∃ k, ks = [k] := by
    have := congrArg List.length hcut
    rw [List.length_map] at this
    exact List.length_eq_one_iff.mp this.symm
  obtain ⟨x,hx,-⟩ := hw.2.1 k (List.mem_singleton_self k)
  replace hcut := List.head_eq_of_cons_eq hcut
  rcases k with _ | _ | k
  · exact absurd hcut (by decide)
  · exact absurd hcut (by decide)
  · cases hx

end Rpc

end Limux
