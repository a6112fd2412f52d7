import Limux.Socket

/-! Runs of a socket connection. Every complete line is served once and in order,
unless the client shuts down while a line is still waiting: the callback that
meets the end of the stream drops what it has buffered. -/
namespace Limux

namespace Conn

variable {σ : Type} {handle : σ → String → String × σ} {app : σ} {bytes : List UInt8}
  {c c' : Conn σ}

theorem replies_append (handle : σ → String → String × σ) (app : σ) (a b : List String) :
    replies handle app (a ++ b) =
      ((replies handle app a).1 ++ (replies handle (replies handle app a).2 b).1,
        (replies handle (replies handle app a).2 b).2) := by
  induction a generalizing app with
  | nil => rfl
  | cons x xs ih => simp [replies,ih]

/-- All responses of a batch are taken whole. -/
def RoomFor (handle : σ → String → String × σ) (rooms : ℕ → ℕ) (app : σ) (cmds : List String) :
    Prop :=
  ∀ i r, (replies handle app cmds).1[i]? = some r → (frame r).length ≤ rooms i

theorem serveLines_fields (handle : σ → String → String × σ) (rooms : ℕ → ℕ) (i : ℕ) (ls : List (List UInt8)) (c : Conn σ) :
    (serveLines handle rooms i ls c).unsent = c.unsent ∧
      (serveLines handle rooms i ls c).inflight = c.inflight ∧
      (serveLines handle rooms i ls c).shut = c.shut ∧
      (serveLines handle rooms i ls c).executed = c.executed ++ ls.map lineCommand ∧
      (serveLines handle rooms i ls c).app = (replies handle c.app (ls.map lineCommand)).2 := by
  induction ls generalizing i c with
  | nil => simp [serveLines,replies]
  | cons l ls ih =>
    rw [serveLines]
    obtain ⟨h1,h2,h3,h4,h5⟩ := ih (i+1) { c with
      app := (handle c.app (lineCommand l)).2
      executed := c.executed ++ [lineCommand l]
      out := c.out ++ (frame (handle c.app (lineCommand l)).1).take (rooms i) }
    refine ⟨h1,h2,h3,?_,h5⟩
    rw [h4]
    simp

theorem serveLines_out (rooms : ℕ → ℕ) (i : ℕ) (ls : List (List UInt8)) (c : Conn σ)
    (h : RoomFor handle (fun j => rooms (i+j)) c.app (ls.map lineCommand)) :
    (serveLines handle rooms i ls c).out =
      c.out ++ ((replies handle c.app (ls.map lineCommand)).1).flatMap frame := by
  induction ls generalizing i c with
  | nil => simp [serveLines,replies]
  | cons l ls ih =>
    have hhead : (frame (handle c.app (lineCommand l)).1).length ≤ rooms i :=
      h 0 (handle c.app (lineCommand l)).1 (by simp [replies])
    rw [serveLines,ih]
    · simp only [List.map_cons,replies,List.flatMap_cons,← List.append_assoc]
      rw [List.take_of_length_le hhead]
    · intro j r hr
      have hj : (frame r).length ≤ rooms (i+(j+1)) := h (j+1) r (by simpa [replies] using hr)
      rwa [show i+(j+1) = i+1+j by omega] at hj

/-- The condition on one event: the client keeps at most a buffer full of bytes
outstanding, shuts down only when every line it sent has been served, and takes
the responses. -/
def Orderly (handle : σ → String → String × σ) (c : Conn σ) : ConnEvent → Prop
  | .send n => c.buf.length+c.inflight.length+n ≤ bufferLimit
  | .shutdown => newline ∉ c.buf ∧ newline ∉ c.inflight
  | .wouldBlock rooms => RoomFor handle rooms c.app (commands c.buf)
  | _ => True

/-- Connections reached from `start` by events that satisfy `ok`. -/
inductive Runs (handle : σ → String → String × σ) (ok : Conn σ → ConnEvent → Prop)
    (app : σ) (bytes : List UInt8) : Conn σ → Prop
  | start : Runs handle ok app bytes (start app bytes)
  | step {c c' : Conn σ} (e : ConnEvent) : Runs handle ok app bytes c → ok c e →
      c.step handle e = some c' → Runs handle ok app bytes c'

/-- What holds of every connection, orderly or not: the client's bytes are the
served lines, what is buffered, what is under way and what is unsent. -/
structure Served (handle : σ → String → String × σ) (app : σ) (bytes : List UInt8)
    (c : Conn σ) : Prop where
  lines : ∃ done, (∀ l ∈ done, newline ∉ l) ∧ c.executed = done.map lineCommand ∧
    bytes = Lines.join newline done ++ (c.buf ++ c.inflight ++ c.unsent)
  app : c.app = (replies handle app c.executed).2
  idle : c.phase = .idle → newline ∉ c.buf
  shut : c.shut = true → c.unsent = []

theorem Served.start (handle : σ → String → String × σ) (app : σ) (bytes : List UInt8) :
    Served handle app bytes (start app bytes) :=
  ⟨⟨[],by simp,rfl,by simp [Conn.start,Lines.join]⟩,rfl,by simp [Conn.start],
    by simp [Conn.start]⟩

theorem Served.step (h : Served handle app bytes c) {e : ConnEvent}
    (hs : c.step handle e = some c') : Served handle app bytes c' := by
  obtain ⟨⟨done,hclean,hex,hb⟩,happ,hidle,hshut⟩ := h
  cases e with
  | send n =>
    obtain ⟨⟨h1,-,-,-⟩,h2⟩ := Option.ite_none_right_eq_some.mp hs
    cases h2
    refine ⟨⟨done,hclean,hex,?_⟩,happ,hidle,fun h => by simp [h1] at h⟩
    rw [hb]
    simp
  | shutdown =>
    obtain ⟨⟨-,h1⟩,h2⟩ := Option.ite_none_right_eq_some.mp hs
    cases h2
    exact ⟨⟨done,hclean,hex,hb⟩,happ,hidle,fun _ => h1⟩
  | callback =>
    obtain ⟨-,h2⟩ := Option.ite_none_right_eq_some.mp hs
    cases h2
    exact ⟨⟨done,hclean,hex,hb⟩,happ,fun h => (by cases h),hshut⟩
  | read n =>
    obtain ⟨⟨h1,-,-,-⟩,h2⟩ := Option.ite_none_right_eq_some.mp hs
    have hb' : bytes = Lines.join newline done ++
        (c.buf ++ c.inflight.take n ++ c.inflight.drop n ++ c.unsent) := by
      rw [hb]; simp
    simp only [Option.some.injEq] at h2
    split at h2 <;> subst h2
    · exact ⟨⟨done,hclean,hex,hb'⟩,happ,fun h => (by cases h),hshut⟩
    · exact ⟨⟨done,hclean,hex,hb'⟩,happ,fun h => (by rw [h1] at h; cases h),hshut⟩
  | wouldBlock rooms =>
    obtain ⟨⟨-,h1,h2⟩,h3⟩ := Option.ite_none_right_eq_some.mp hs
    cases h3
    obtain ⟨f1,f2,f3,f4,f5⟩ := serveLines_fields handle rooms 0
      (Lines.complete newline c.buf) c
    refine ⟨⟨done ++ Lines.complete newline c.buf,?_,?_,?_⟩,?_,fun _ => (Lines.cut_clean c.buf).2,?_⟩
    · intro l hl
      rcases List.mem_append.mp hl with hl | hl
      · exact hclean l hl
      · exact (Lines.cut_clean c.buf).1 l hl
    · rw [f4,hex,List.map_append]
    · rw [f1,f2,hb,Lines.join_append]
      conv_lhs => rw [← @Lines.cut_eq _ _ newline c.buf]
      simp only [List.append_assoc]
    · rw [f5,f4,replies_append,← happ]
    · intro h
      rw [f3,h2] at h
      cases h
  | eof =>
    obtain ⟨-,h2⟩ := Option.ite_none_right_eq_some.mp hs
    cases h2
    exact ⟨⟨done,hclean,hex,hb⟩,happ,fun h => (by cases h),hshut⟩

theorem Runs.served {ok : Conn σ → ConnEvent → Prop} (h : Runs handle ok app bytes c) :
    Served handle app bytes c := by
  induction h with
  | start => exact .start handle app bytes
  | step e _ _ hs ih => exact ih.step hs

theorem Served.commands (h : Served handle app bytes c) :
    commands bytes = c.executed ++ commands (c.buf ++ c.inflight ++ c.unsent) := by
  obtain ⟨done,hclean,hex,hb⟩ := h.lines
  rw [Conn.commands,hb,Lines.complete_join hclean,List.map_append,hex]
  rfl

/-- What holds in addition while every event is orderly. -/
structure Healthy (handle : σ → String → String × σ) (app : σ) (c : Conn σ) : Prop where
  limit : c.buf.length+c.inflight.length ≤ bufferLimit
  quiet : c.shut = true → newline ∉ c.buf ∧ newline ∉ c.inflight
  closed : c.phase = .closed → c.shut = true ∧ c.inflight = []
  out : c.out = ((replies handle app c.executed).1).flatMap frame

theorem Healthy.step (h : Healthy handle app c) (hserved : Served handle app bytes c)
    {e : ConnEvent} (hok : Orderly handle c e) (hs : c.step handle e = some c') :
    Healthy handle app c' := by
  obtain ⟨hlim,hquiet,hclosed,hout⟩ := h
  cases e with
  | send n =>
    obtain ⟨⟨h1,h2,-,h4⟩,h5⟩ := Option.ite_none_right_eq_some.mp hs
    cases h5
    refine ⟨?_,fun h => by simp [h1] at h,fun h => absurd h h2,hout⟩
    simp only [List.length_append,List.length_take]
    have hok' : c.buf.length+c.inflight.length+n ≤ bufferLimit := hok
    omega
  | shutdown =>
    obtain ⟨-,h2⟩ := Option.ite_none_right_eq_some.mp hs
    cases h2
    exact ⟨hlim,fun _ => hok,fun h => ⟨rfl,(hclosed h).2⟩,hout⟩
  | callback =>
    obtain ⟨-,h2⟩ := Option.ite_none_right_eq_some.mp hs
    cases h2
    exact ⟨hlim,hquiet,fun h => (by cases h),hout⟩
  | read n =>
    obtain ⟨⟨h1,-,-,h4⟩,h5⟩ := Option.ite_none_right_eq_some.mp hs
    have hlen : (c.buf ++ c.inflight.take n).length+(c.inflight.drop n).length =
        c.buf.length+c.inflight.length := by
      simp only [List.length_append,List.length_take,List.length_drop]
      omega
    have hlim' : ¬ bufferLimit < (c.buf ++ c.inflight.take n).length := by omega
    simp only [Option.some.injEq,if_neg hlim'] at h5
    subst h5
    refine ⟨hlen.trans_le hlim,fun h => ?_,fun h => (by rw [h1] at h; cases h),hout⟩
    obtain ⟨hb,hi⟩ := hquiet h
    simp only [List.mem_append,not_or]
    exact ⟨⟨hb,fun hm => hi (List.mem_of_mem_take hm)⟩,fun hm => hi (List.mem_of_mem_drop hm)⟩
  | wouldBlock rooms =>
    obtain ⟨⟨-,h1,h2⟩,h3⟩ := Option.ite_none_right_eq_some.mp hs
    cases h3
    obtain ⟨f1,f2,f3,f4,-⟩ := serveLines_fields handle rooms 0 (Lines.complete newline c.buf) c
    have hsplit := congrArg List.length (@Lines.cut_eq _ _ newline c.buf)
    rw [List.length_append] at hsplit
    refine ⟨?_,fun h => ?_,fun h => (by cases h),?_⟩
    · rw [f2,h1]
      simp only [List.length_nil]
      omega
    · rw [f3,h2] at h; cases h
    · have hroom : RoomFor handle (fun j => rooms (0+j)) c.app
          ((Lines.complete newline c.buf).map lineCommand) := by
        simp only [Nat.zero_add]
        exact hok
      rw [serveLines_out rooms 0 _ c hroom,f4,replies_append,hout,hserved.app]
      simp
  | eof =>
    obtain ⟨⟨-,h1,h2⟩,h3⟩ := Option.ite_none_right_eq_some.mp hs
    cases h3
    exact ⟨hlim,hquiet,fun _ => ⟨h2,h1⟩,hout⟩

theorem Runs.healthy (h : Runs handle (Orderly handle) app bytes c) : Healthy handle app c := by
  induction h with
  | start => exact ⟨by simp [Conn.start],by simp [Conn.start],by simp [Conn.start],rfl⟩
  | step e hr hok hs ih => exact ih.step hr.served hok hs

/-- Nothing is left for the callback to do. -/
def Settled (c : Conn σ) : Prop :=
  c.phase = .closed ∨ c.phase = .idle ∧ c.inflight = [] ∧ c.shut = false

def ConnEvent.OfServer : ConnEvent → Prop
  | .send _ | .shutdown => False
  | _ => True

def ServerStep (handle : σ → String → String × σ) (c c' : Conn σ) : Prop :=
  ∃ e, ConnEvent.OfServer e ∧ Orderly handle c e ∧ c.step handle e = some c'

/-- Once draining, the callback finishes. -/
theorem settles_draining (handle : σ → String → String × σ) (n : ℕ) (c : Conn σ)
    (hn : c.inflight.length ≤ n) (hp : c.phase = .draining) :
    ∃ c', Relation.ReflTransGen (ServerStep handle) c c' ∧ Settled c' ∧ c'.unsent = c.unsent := by
  induction n generalizing c with
  | zero =>
    have hi : c.inflight = [] := List.length_eq_zero_iff.mp (Nat.le_zero.mp hn)
    cases hs : c.shut with
    | true =>
      refine ⟨{ c with phase := .closed },.single ⟨.eof,trivial,trivial,?_⟩,.inl rfl,rfl⟩
      rw [Conn.step,if_pos ⟨hp,hi,hs⟩]
    | false =>
      -- a peer that takes every response whole
      let rooms : ℕ → ℕ := fun i =>
        (((replies handle c.app (commands c.buf)).1[i]?).map (fun r => (frame r).length)).getD 0
      have hroom : RoomFor handle rooms c.app (commands c.buf) := by
        intro i r hr
        simp [rooms,hr]
      obtain ⟨f1,f2,f3,-,-⟩ := serveLines_fields handle rooms 0 (Lines.complete newline c.buf) c
      refine ⟨{ serveLines handle rooms 0 (Lines.complete newline c.buf) c with
        buf := Lines.rest newline c.buf, phase := .idle },
        .single ⟨.wouldBlock rooms,trivial,hroom,?_⟩,.inr ⟨rfl,f2.trans hi,f3.trans hs⟩,f1⟩
      rw [Conn.step,if_pos ⟨hp,hi,hs⟩]
  | succ n ih =>
    rcases Nat.eq_zero_or_pos c.inflight.length with h0 | hpos
    · exact ih c (by omega) hp
    let k := min 4096 c.inflight.length
    have hk : 0 < k ∧ k ≤ 4096 ∧ k ≤ c.inflight.length := by
      simp only [k]
      omega
    let c₁ : Conn σ := { c with buf := c.buf ++ c.inflight.take k, inflight := c.inflight.drop k }
    have hstep : c.step handle (.read k) =
        some (if bufferLimit < c₁.buf.length then { c₁ with phase := .closed } else c₁) := by
      rw [Conn.step,if_pos ⟨hp,hk⟩]
    by_cases hl : bufferLimit < c₁.buf.length
    · rw [if_pos hl] at hstep
      exact ⟨_,.single ⟨.read k,trivial,trivial,hstep⟩,.inl rfl,rfl⟩
    · rw [if_neg hl] at hstep
      obtain ⟨c',hr,hset,hu⟩ := ih c₁ (by simp only [c₁,List.length_drop]; omega) hp
      exact ⟨c',.head ⟨.read k,trivial,trivial,hstep⟩ hr,hset,hu⟩

theorem settles (handle : σ → String → String × σ) (c : Conn σ) :
    ∃ c', Relation.ReflTransGen (ServerStep handle) c c' ∧ Settled c' ∧ c'.unsent = c.unsent := by
  cases hp : c.phase with
  | closed => exact ⟨c,.refl,.inl hp,rfl⟩
  | draining => exact settles_draining handle _ c le_rfl hp
  | idle =>
    by_cases hq : c.inflight = [] ∧ c.shut = false
    · exact ⟨c,.refl,.inr ⟨hp,hq⟩,rfl⟩
    · have hready : c.inflight ≠ [] ∨ c.shut = true := by
        rw [not_and_or] at hq
        rcases hq with hq | hq
        · exact .inl hq
        · exact .inr (by simpa using hq)
      obtain ⟨c',hr,hset,hu⟩ := settles_draining handle _ { c with phase := .draining } le_rfl rfl
      exact ⟨c',.head ⟨.callback,trivial,trivial,by rw [Conn.step,if_pos ⟨hp,hready⟩]⟩ hr,hset,hu⟩

/-- In every run whose client shuts down only when its lines are served, and takes
the responses, the commands are executed once and in order with their responses
written back; the callback always gets through what was sent, and then every
complete line has been executed. -/
theorem orderly_client_is_served (h : Runs handle (Orderly handle) app bytes c) :
    commands bytes = c.executed ++ commands (c.buf ++ c.inflight ++ c.unsent) ∧
    c.app = (replies handle app c.executed).2 ∧
    c.out = ((replies handle app c.executed).1).flatMap frame ∧
    (Settled c → c.unsent = [] → c.executed = commands bytes) ∧
    ∃ c', Relation.ReflTransGen (ServerStep handle) c c' ∧ Settled c' ∧
      c'.unsent = c.unsent := by
  have hsv := h.served
  have hh := h.healthy
  refine ⟨hsv.commands,hsv.app,hh.out,fun hset hu => ?_,settles handle c⟩
  have hclean : newline ∉ c.buf ++ c.inflight ++ c.unsent := by
    rw [hu,List.append_nil,List.mem_append,not_or]
    rcases hset with hp | ⟨hp,hi,-⟩
    · exact hh.quiet (hh.closed hp).1
    · exact ⟨hsv.idle hp,by simp [hi]⟩
  rw [hsv.commands,Conn.commands,(Lines.complete_eq_nil_iff _).mpr hclean]
  simp

/-- `handle_command` on the two lines of the runs below. -/
def pong (_ : Unit) (cmd : String) : String × Unit :=
  (if cmd = "ping" then "OK pong" else "ERROR: unknown command: " ++ cmd,())

def pingLine : List UInt8 := [112,105,110,103,10]

/-- Two reads, then the line is served, then the client shuts down. -/
theorem orderly_ping_is_served :
    ∃ c, Runs pong (Orderly pong) () pingLine c ∧ c.phase = .closed ∧
      c.executed = commands pingLine ∧ commands pingLine = ["ping"] := by
  have hroom : Orderly pong ⟨[],[],false,pingLine,.draining,(),[],[]⟩ (.wouldBlock fun _ => 8) := by
    intro i r hr
    have hrep : (replies pong () (commands pingLine)).1 = ["OK pong"] := by decide
    rw [hrep] at hr
    obtain ⟨rfl,rfl⟩ : i = 0 ∧ r = "OK pong" := by
      cases i with
      | zero => exact ⟨rfl,(Option.some.inj hr).symm⟩
      | succ i => cases hr
    decide
  have h₁ : Runs pong (Orderly pong) () pingLine ⟨[],[],false,pingLine,.draining,(),[],[]⟩ :=
    .step (.read 3) (.step (.read 2) (.step .callback (.step (.send 5) .start (by
      show 0+0+5 ≤ bufferLimit
      decide) rfl) trivial rfl) trivial rfl) trivial rfl
  have h₂ := Runs.step (.wouldBlock fun _ => 8) h₁ hroom rfl
  have h₃ := Runs.step .eof (.step .callback (.step .shutdown h₂ ⟨by decide,by decide⟩ rfl) trivial rfl)
    trivial rfl
  exact ⟨_,h₃,rfl,(orderly_client_is_served h₃).2.2.2.1 (.inl rfl) rfl,by decide⟩

/-- The exchange of `forward_to_socket`: line, shutdown, and only then the callback.
It reads the line and the end of the stream in one go and executes nothing. -/
theorem early_shutdown_loses_ping :
    ∃ c, Runs pong (fun c e => ∀ n, e = .send n → c.buf.length+c.inflight.length+n ≤ bufferLimit)
      () pingLine c ∧ Settled c ∧ c.unsent = [] ∧ c.executed = [] ∧ c.out = [] ∧
      commands pingLine = ["ping"] := by
  have h : Runs pong
      (fun c e => ∀ n, e = .send n → c.buf.length+c.inflight.length+n ≤ bufferLimit) () pingLine
      ⟨[],[],true,pingLine,.closed,(),[],[]⟩ :=
    .step .eof (.step (.read 5) (.step .callback (.step .shutdown (.step (.send 5) .start (by
      rintro n hn
      cases hn
      decide) rfl) (by simp) rfl) (by simp) rfl) (by simp) rfl) (by simp) rfl
  exact ⟨_,h,.inl rfl,rfl,rfl,rfl,by decide⟩

/-- After the shutdown nothing is executed any more. -/
theorem executed_of_shut (hshut : c.shut = true) {e : ConnEvent}
    (hs : c.step handle e = some c') : c'.executed = c.executed ∧ c'.shut = true := by
  cases e with
  | send n | shutdown | wouldBlock rooms =>
    obtain ⟨h1,-⟩ := Option.ite_none_right_eq_some.mp hs
    simp [hshut] at h1
  | callback | eof =>
    obtain ⟨-,h2⟩ := Option.ite_none_right_eq_some.mp hs
    cases h2
    exact ⟨rfl,hshut⟩
  | read n =>
    obtain ⟨-,h2⟩ := Option.ite_none_right_eq_some.mp hs
    simp only [Option.some.injEq] at h2
    split at h2 <;> subst h2 <;> exact ⟨rfl,hshut⟩

/-- The condition on the shutdown is exact: a line that waits then is lost. -/
theorem served_iff_shutdown_late {ok : Conn σ → ConnEvent → Prop}
    (h : Runs handle ok app bytes c) (hs : c.step handle .shutdown = some c') {d : Conn σ}
    (hd : Relation.ReflTransGen (fun a b => ∃ e, a.step handle e = some b) c' d) :
    d.executed = commands bytes ↔ newline ∉ c.buf ∧ newline ∉ c.inflight := by
  obtain ⟨⟨-,hu⟩,h2⟩ := Option.ite_none_right_eq_some.mp hs
  have hconst : d.executed = c'.executed ∧ d.shut = true := by
    induction hd with
    | refl => cases h2; exact ⟨rfl,rfl⟩
    | tail _ hstep ih =>
      obtain ⟨e,he⟩ := hstep
      obtain ⟨h3,h4⟩ := executed_of_shut ih.2 he
      exact ⟨h3.trans ih.1,h4⟩
  have hex : c'.executed = c.executed := by cases h2; rfl
  rw [hconst.1,hex,h.served.commands,hu,List.append_nil]
  constructor
  · intro he
    have hnil : commands (c.buf ++ c.inflight) = [] := List.append_right_eq_self.mp he.symm
    have := (Lines.complete_eq_nil_iff _).mp (List.map_eq_nil_iff.mp hnil)
    simpa using this
  · intro hq
    have hnil : newline ∉ c.buf ++ c.inflight := by simpa using hq
    rw [Conn.commands,(Lines.complete_eq_nil_iff _).mpr hnil]
    simp

/-! A client that shuts down only behind its served lines, as the command line
tool does when it has read the response. -/

/-- No shutdown while a line break is unserved. -/
def Patient (c : Conn σ) (e : ConnEvent) : Prop :=
  e = .shutdown → newline ∉ c.buf ∧ newline ∉ c.inflight

theorem Runs.trans_server {ok : Conn σ → ConnEvent → Prop}
    (hok : ∀ c e, ConnEvent.OfServer e → ok c e) (h : Runs handle ok app bytes c)
    (hs : Relation.ReflTransGen (ServerStep handle) c c') : Runs handle ok app bytes c' := by
  induction hs with
  | refl => exact h
  | tail _ hstep ih =>
    obtain ⟨e,he,-,hst⟩ := hstep
    exact .step e ih (hok _ e he) hst

theorem patient_server (c : Conn σ) (e : ConnEvent) (h : ConnEvent.OfServer e) :
    Patient c e := by
  rintro rfl
  cases h

/-- Either the client is done and nothing waits, or the connection is open. -/
def DoneOrOpen (c : Conn σ) : Prop :=
  c.shut = true ∧ c.unsent = [] ∧ newline ∉ c.buf ∧ newline ∉ c.inflight ∨
    c.shut = false ∧ c.phase ≠ .closed

/-- Within the limit a patient client's connection stays until it is done. -/
theorem Runs.doneOrOpen (h : Runs handle Patient app bytes c)
    (hb : bytes.length ≤ bufferLimit) : DoneOrOpen c := by
  induction h with
  | start => exact .inr ⟨rfl,by simp [Conn.start]⟩
  | @step c c' e hr hok hs ih =>
    have hlen : c.buf.length+c.inflight.length ≤ bufferLimit := by
      obtain ⟨done,-,-,he⟩ := hr.served.lines
      have := congrArg List.length he
      simp only [List.length_append] at this
      omega
    cases e with
    | shutdown =>
      obtain ⟨⟨-,hu⟩,h3⟩ := Option.ite_none_right_eq_some.mp hs
      cases h3
      exact .inl ⟨rfl,hu,hok rfl⟩
    | send n =>
      obtain ⟨⟨h0,h1,-,-⟩,h3⟩ := Option.ite_none_right_eq_some.mp hs
      cases h3
      exact .inr ⟨h0,h1⟩
    | callback =>
      obtain ⟨-,h3⟩ := Option.ite_none_right_eq_some.mp hs
      cases h3
      exact ih.imp id (fun h => ⟨h.1,by simp⟩)
    | read n =>
      obtain ⟨⟨h4,-,-,-⟩,h3⟩ := Option.ite_none_right_eq_some.mp hs
      have hlim : ¬ bufferLimit < (c.buf ++ c.inflight.take n).length := by
        simp only [List.length_append,List.length_take]
        omega
      simp only [Option.some.injEq,if_neg hlim] at h3
      subst h3
      refine ih.imp (fun ⟨hs,hu,hbuf,hin⟩ => ⟨hs,hu,?_,fun hm => hin (List.mem_of_mem_drop hm)⟩) id
      simp only [List.mem_append,not_or]
      exact ⟨hbuf,fun hm => hin (List.mem_of_mem_take hm)⟩
    | wouldBlock rooms =>
      obtain ⟨⟨-,-,h0⟩,h3⟩ := Option.ite_none_right_eq_some.mp hs
      cases h3
      obtain ⟨-,-,f3,-,-⟩ := serveLines_fields handle rooms 0 (Lines.complete newline c.buf) c
      exact .inr ⟨f3.trans h0,by simp⟩
    | eof =>
      obtain ⟨⟨-,-,h4⟩,h3⟩ := Option.ite_none_right_eq_some.mp hs
      cases h3
      exact .inl (ih.resolve_right (fun h => by rw [h.1] at h4; cases h4))

/-- More bytes than the buffer takes, read in one go, are dropped unserved. -/
theorem overflow (handle : σ → String → String × σ) (n : ℕ) (c : Conn σ)
    (hn : c.inflight.length ≤ n) (hp : c.phase = .draining)
    (hlen : bufferLimit < c.buf.length+c.inflight.length) (hb : c.buf.length ≤ bufferLimit) :
    ∃ c', Relation.ReflTransGen (ServerStep handle) c c' ∧ Settled c' ∧ c'.unsent = c.unsent ∧
      c'.executed = c.executed := by
  induction n generalizing c with
  | zero => omega
  | succ n ih =>
    let k := min 4096 c.inflight.length
    have hk : 0 < k ∧ k ≤ 4096 ∧ k ≤ c.inflight.length := by
      simp only [k]
      omega
    let c₁ : Conn σ := { c with buf := c.buf ++ c.inflight.take k, inflight := c.inflight.drop k }
    have hstep : c.step handle (.read k) =
        some (if bufferLimit < c₁.buf.length then { c₁ with phase := .closed } else c₁) := by
      rw [Conn.step,if_pos ⟨hp,hk⟩]
    by_cases hl : bufferLimit < c₁.buf.length
    · rw [if_pos hl] at hstep
      exact ⟨_,.single ⟨.read k,trivial,trivial,hstep⟩,.inl rfl,rfl,rfl⟩
    · rw [if_neg hl] at hstep
      have hlen' : c₁.buf.length+c₁.inflight.length = c.buf.length+c.inflight.length := by
        simp only [c₁,List.length_append,List.length_take,List.length_drop]
        omega
      obtain ⟨c',hr,hset,hu,hex⟩ := ih c₁ (by simp only [c₁,List.length_drop]; omega) hp
        (hlen'.symm ▸ hlen) (by omega)
      exact ⟨c',.head ⟨.read k,trivial,trivial,hstep⟩ hr,hset,hu,hex⟩

theorem commands_encode (s : Text) :
    commands (Utf8.encode s) = (Lines.complete '\n' s).map (fun l => .ofList (Text.trim l)) := by
  rw [commands,newline,Utf8.complete_encode,List.map_map]
  refine List.map_congr_left (fun l _ => ?_)
  simp [lineCommand,Utf8.decodeLossy_encode]

theorem encode_line_length (line : Text) :
    (Utf8.encode (line ++ ['\n'])).length = (Utf8.encode line).length+1 := by
  simp only [Utf8.encode,List.flatMap_append,List.length_append]
  rfl

/-- A patient client that sends one line gets exactly one command executed,
with the property `P`, if and only if the line has no line break in it and fits
the buffer and the trimmed line has the property. -/
theorem single_command_iff (handle : σ → String → String × σ) (app : σ) (line : Text)
    (P : String → Prop) :
    (∀ c, Runs handle Patient app (Utf8.encode (line ++ ['\n'])) c → Settled c →
      c.unsent = [] → ∃ cmd, c.executed = [cmd] ∧ P cmd) ↔
    '\n' ∉ line ∧ (Utf8.encode line).length < bufferLimit ∧ P (.ofList (Text.trim line)) := by
  have hlen := encode_line_length line
  generalize hbytes : Utf8.encode (line ++ ['\n']) = bytes at hlen
  have hsend : Runs handle Patient app bytes
      { Conn.start app bytes with unsent := [], inflight := bytes } := by
    refine .step (.send bytes.length) .start (by simp [Patient]) ?_
    rw [Conn.step,if_pos ⟨rfl,by simp [Conn.start],by omega,by simp [Conn.start]⟩]
    simp [Conn.start]
  have hserved : bytes.length ≤ bufferLimit → ∀ c, Runs handle Patient app bytes c →
      Settled c → c.unsent = [] → c.executed = commands bytes := by
    intro hb c hr hset hu
    have hclean : newline ∉ c.buf ++ c.inflight ++ c.unsent := by
      rcases hr.doneOrOpen hb with ⟨-,-,hbuf,hin⟩ | ⟨-,hp⟩
      · rw [hu,List.append_nil,List.mem_append,not_or]
        exact ⟨hbuf,hin⟩
      · obtain ⟨hidle,hi,-⟩ := hset.resolve_left hp
        rw [hi,hu,List.append_nil,List.append_nil]
        exact hr.served.idle hidle
    rw [hr.served.commands,Conn.commands,(Lines.complete_eq_nil_iff _).mpr hclean]
    simp
  constructor
  · intro h
    have hshort : bytes.length ≤ bufferLimit := by
      by_contra hlong
      have hcb : Runs handle Patient app bytes
          { Conn.start app bytes with unsent := [], inflight := bytes, phase := .draining } := by
        refine .step .callback hsend (by simp [Patient]) ?_
        rw [Conn.step,if_pos ⟨rfl,.inl (by
          intro he
          simp only at he
          rw [he] at hlen
          simp at hlen)⟩]
      obtain ⟨c',hrun,hset,hu,hex⟩ := overflow handle bytes.length
        { Conn.start app bytes with unsent := [], inflight := bytes, phase := .draining }
        le_rfl rfl (by simp only [Conn.start,List.length_nil]; omega) (by simp [Conn.start])
      obtain ⟨cmd,hc,-⟩ := h c' (hcb.trans_server patient_server hrun) hset hu
      rw [hex] at hc
      cases hc
    obtain ⟨c',hrun,hset,hu⟩ := settles handle
      { Conn.start app bytes with unsent := [], inflight := bytes }
    have hr' := hsend.trans_server patient_server hrun
    obtain ⟨cmd,hc,hP⟩ := h c' hr' hset hu
    rw [hserved hshort c' hr' hset hu,← hbytes,commands_encode] at hc
    have hnl : '\n' ∉ line := by
      intro hm
      have hcut := @Lines.cut_eq _ _ '\n' line
      obtain ⟨hcl,hrest⟩ := @Lines.cut_clean _ _ '\n' line
      have hne : Lines.complete '\n' line ≠ [] := fun he =>
        (Lines.complete_eq_nil_iff line).mp he hm
      have hlines : Lines.complete '\n' (line ++ ['\n']) =
          Lines.complete '\n' line ++ [Lines.rest '\n' line] := by
        conv_lhs => rw [← hcut]
        rw [List.append_assoc,Lines.complete_join hcl]
        congr 1
        exact congrArg Prod.fst (Lines.cut_line hrest [])
      rw [hlines] at hc
      have hl := congrArg List.length hc
      simp only [List.length_map,List.length_append,List.length_singleton] at hl
      have := List.length_pos_of_ne_nil hne
      omega
    refine ⟨hnl,by omega,?_⟩
    rw [show Lines.complete '\n' (line ++ ['\n']) = [line] from
      congrArg Prod.fst (Lines.cut_line hnl [])] at hc
    rw [List.map_cons,List.map_nil,List.cons.injEq] at hc
    rw [hc.1]
    exact hP
  · rintro ⟨hnl,hshort,hP⟩ c hr hset hu
    refine ⟨_,?_,hP⟩
    rw [hserved (by omega) c hr hset hu,← hbytes,commands_encode,
      show Lines.complete '\n' (line ++ ['\n']) = [line] from
        congrArg Prod.fst (Lines.cut_line hnl [])]
    rfl

/-- With a patient client's bytes sent, the callback comes to rest, and it does so
having run exactly one command, one with `P`. -/
def RunsOnce (handle : σ → String → String × σ) (app : σ) (bytes : List UInt8)
    (P : String → Prop) : Prop :=
  ∀ c, Runs handle Patient app bytes c → c.unsent = [] →
    (∃ c', Relation.ReflTransGen (ServerStep handle) c c' ∧ Settled c') ∧
    (Settled c → ∃ cmd, c.executed = [cmd] ∧ P cmd)

theorem runsOnce_line_iff (handle : σ → String → String × σ) (app : σ) (line : Text)
    (P : String → Prop) :
    RunsOnce handle app (Utf8.encode (line ++ ['\n'])) P ↔
      '\n' ∉ line ∧ (Utf8.encode line).length < bufferLimit ∧ P (.ofList (Text.trim line)) := by
  rw [← single_command_iff handle app line P]
  constructor
  · exact fun h c hr hset hu => (h c hr hu).2 hset
  · intro h c hr hu
    obtain ⟨c',hs,hset,-⟩ := settles handle c
    exact ⟨⟨c',hs,hset⟩,fun hset => h c hr hset hu⟩

end Conn

end Limux
