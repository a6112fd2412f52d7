import Limux.RelayAuthRun

/-! The two ends of the relay with the same credentials: each run comes to the command, and
the server reads the one that was sent. -/
namespace Limux

open Text Machine

namespace RelayAuth

variable {F : Type}

theorem notMem_lineBytes {t : Text} (h : '\n' ∉ t) : newline ∉ Utf8.encode t :=
  fun hm => h (Utf8.newline_mem_encode.mp hm)

theorem lineBytes_eq (t : Text) : lineBytes t = Utf8.encode t ++ [newline] := by
  rw [lineBytes,Utf8.encode,List.flatMap_append]
  rfl

theorem first_lineBytes {t : Text} (h : '\n' ∉ t) :
    Lines.first newline (lineBytes t) = (lineBytes t,[]) := by
  rw [lineBytes_eq,Lines.first_line (notMem_lineBytes h)]

theorem arrived {t : Text} (h : '\n' ∉ t) {buf rest : List UInt8} (he : buf ++ rest = lineBytes t)
    (hm : newline ∈ buf) : buf = lineBytes t ∧ rest = [] := by
  obtain ⟨a,b,rfl,ha⟩ := List.eq_append_cons_of_mem hm
  rw [lineBytes_eq,List.append_assoc,List.cons_append] at he
  have hf := congrArg (Lines.first newline) he
  rw [Lines.first_line ha,Lines.first_line (notMem_lineBytes h)] at hf
  obtain ⟨h₁,h₂⟩ := Prod.mk.inj hf
  obtain ⟨rfl,rfl⟩ := List.append_eq_nil_iff.mp h₂
  exact ⟨by rw [lineBytes_eq]; exact h₁,rfl⟩

theorem newline_mem_lineBytes (t : Text) : newline ∈ lineBytes t := by
  rw [lineBytes_eq]
  exact List.mem_append_right _ (List.mem_singleton_self _)

theorem hex_notMem (l : List UInt8) : '\n' ∉ randomHex l :=
  fun hm => absurd (Hex.mem_alphabet hm) (by decide)

theorem challenge_notMem {relayId nonce : Text} (hi : '\n' ∉ relayId) (hn : '\n' ∉ nonce) :
    '\n' ∉ challenge relayId nonce := by
  unfold challenge
  simp only [List.mem_append,not_or]
  exact ⟨⟨⟨⟨by decide +kernel,hi⟩,by decide +kernel⟩,hn⟩,by decide +kernel⟩

theorem response_notMem {relayID mac : Text} (hi : '\n' ∉ relayID) (hm : '\n' ∉ mac) :
    '\n' ∉ response relayID mac := by
  unfold response
  simp only [List.mem_append,not_or]
  exact ⟨⟨⟨⟨by decide +kernel,hm⟩,by decide +kernel⟩,hi⟩,by decide +kernel⟩

/-- The messages of both languages are the same bytes. -/
theorem computeRelayMAC_eq (hmac : Hmac) (token : List UInt8) (relayID nonce : Text) :
    computeRelayMAC hmac token relayID nonce 1 =
      hmac token (Utf8.encode (macMessage relayID nonce)) := by
  unfold computeRelayMAC macMessage
  congr 2
  simp only [List.append_assoc]
  rfl

def ServerPhase.done : ServerPhase → Bool
  | .forwarding _ | .closed => true
  | _ => false

namespace Exchange

/-- Both ends have the credentials of one call of the generators. -/
def Setup.Fair (u : Setup F) (c : Credentials) : Prop :=
  RelayServer.start c.relayId c.relayToken = some u.server ∧ u.auth = ⟨c.relayId,c.relayToken⟩

def Setup.mac (u : Setup F) (nonce : Text) : Text :=
  hexEncode (u.hmac u.server.relayToken
    (Utf8.encode (macMessage u.server.relayId nonce))).toList

/-- The parsers read the three lines of the handshake as JSON. -/
structure Setup.Reads (u : Setup F) (nonce : Text) : Prop where
  challenge : u.unmarshal (lineBytes (challenge u.server.relayId nonce)) =
    some (.obj [("protocol",.str "limux-relay-auth".toList),("version",.num (.int 1)),
      ("relay_id",.str u.server.relayId),("nonce",.str nonce)])
  accepted : u.unmarshal (lineBytes accepted) = some (.obj [("ok",.bool true)])
  response : u.parse (response u.server.relayId (u.mac nonce)) =
    some (.obj [("mac",.str (u.mac nonce)),("relay_id",.str u.server.relayId)])

variable {u : Setup F} {c : Credentials} {nonceBytes : Vector UInt8 16}

theorem server_eq (hf : u.Fair c) : u.server = ⟨c.relayId,c.tokenBytes.toList⟩ :=
  Option.some.inj (hf.1.symm.trans (start_eq c))

theorem nonce_ne_nil (nonceBytes : Vector UInt8 16) : randomHex nonceBytes.toList ≠ [] :=
  relayId_ne_nil ⟨nonceBytes,.replicate 32 0⟩

theorem challenge_members (relayId nonce protocol : Text) {fields : List (String × Json F)}
    (h : fields = [("protocol",.str protocol),("version",.num (.int 1)),
      ("relay_id",.str relayId),("nonce",.str nonce)]) :
    goString fields "protocol" = some protocol ∧ goInt fields "version" = some 1 ∧
      goString fields "relay_id" = some relayId ∧ goString fields "nonce" = some nonce := by
  subst h
  exact ⟨rfl,rfl,rfl,rfl⟩

theorem answer_eq (hf : u.Fair c) (hr : u.Reads (randomHex nonceBytes.toList)) :
    answer u.hmac u.unmarshal u.auth
        (lineBytes (challenge u.server.relayId (randomHex nonceBytes.toList))) =
      some (response u.server.relayId (u.mac (randomHex nonceBytes.toList))) := by
  have hs := server_eq hf
  have htoken : Hex.decode u.auth.relayToken = some u.server.relayToken := by
    rw [hf.2,hs]
    exact Hex.decode_encode _
  have hid : u.auth.relayID = u.server.relayId := by rw [hf.2,hs]
  have hn := nonce_ne_nil nonceBytes
  have hc := hr.challenge
  generalize randomHex nonceBytes.toList = nonce at hn hc ⊢
  generalize lineBytes (challenge u.server.relayId nonce) = line at hc ⊢
  have hmac : Hex.encode (computeRelayMAC u.hmac u.server.relayToken u.server.relayId nonce
      1).toList = u.mac nonce := by
    rw [computeRelayMAC_eq]
    rfl
  unfold answer
  rw [hc]
  generalize "limux-relay-auth".toList = protocol
  obtain ⟨h₁,h₂,h₃,h₄⟩ := challenge_members (F := F) u.server.relayId nonce protocol rfl
  simp only [Option.bind_eq_bind,Option.bind_some,goFields,h₁,h₂,h₃,h₄,hid,htoken]
  rw [if_neg (by simp [hn]),hmac]
  rfl

theorem resultOK_eq (hr : u.Reads (randomHex nonceBytes.toList)) :
    resultOK u.unmarshal (lineBytes accepted) = true := by
  rw [resultOK,hr.accepted]
  rfl

theorem trim_braces (t : Text) :
    trim (('\x7b' :: (t ++ ['\x7d'])) ++ ['\n']) = '\x7b' :: (t ++ ['\x7d']) := by
  rw [trim,List.cons_append,trimStart_of_solid (by decide),← List.cons_append,
    trimEnd_append_nil _ (by decide),← List.cons_append,trimEnd_append_solid _ (by decide)]
  rfl

theorem trim_response (relayID mac : Text) :
    trim (response relayID mac ++ ['\n']) = response relayID mac := by
  have h : ∃ t, response relayID mac = '\x7b' :: (t ++ ['\x7d']) :=
    ⟨"\"mac\":\"".toList ++ mac ++ "\",\"relay_id\":\"".toList ++ relayID ++ "\"".toList,by
      unfold response
      simp only [List.append_assoc]
      rfl⟩
  obtain ⟨t,h⟩ := h
  rw [h,trim_braces]

theorem checkResponse_eq (hr : u.Reads (randomHex nonceBytes.toList)) :
    ServerConn.checkResponse u.hmac u.parse u.server (randomHex nonceBytes.toList)
        (response u.server.relayId (u.mac (randomHex nonceBytes.toList)) ++ ['\n']) =
      .accepting := by
  unfold ServerConn.checkResponse
  rw [trim_response,hr.response]
  simp [Json.index,Json.get,Json.asStr,List.lookup_cons,Setup.mac,constantTimeEq_iff]

/-- Nothing is on its way to the server, or waits there. -/
def ServerQuiet (x : Exchange) : Prop := x.server.buf = [] ∧ x.toServer = []

def ClientQuiet (x : Exchange) : Prop := x.client.buf = [] ∧ x.toClient = []

inductive Joint (u : Setup F) (nonce : Text) (x : Exchange) : Prop
  | start (hs : x.server.phase = .start) (hc : x.client.phase = .awaitChallenge)
      (h : ServerQuiet x) (h' : ClientQuiet x)
  | challenged (hs : x.server.phase = .awaitResponse) (hc : x.client.phase = .awaitChallenge)
      (h : ServerQuiet x)
      (h' : x.client.buf ++ x.toClient = lineBytes (challenge u.server.relayId nonce))
  | responded (hs : x.server.phase = .awaitResponse) (hc : x.client.phase = .awaitResult)
      (h : x.server.buf ++ x.toServer = lineBytes (response u.server.relayId (u.mac nonce)))
      (h' : ClientQuiet x)
  | accepting (hs : x.server.phase = .accepting) (hc : x.client.phase = .awaitResult)
      (h : ServerQuiet x) (h' : ClientQuiet x)
  | accepted (hs : x.server.phase = .awaitCommand) (hc : x.client.phase = .awaitResult)
      (h : ServerQuiet x) (h' : x.client.buf ++ x.toClient = lineBytes accepted)
  | authenticated (hs : x.server.phase = .awaitCommand) (hc : x.client.phase = .authenticated)
      (h : ServerQuiet x) (h' : ClientQuiet x)
  | sent (hs : x.server.phase = .awaitCommand) (hc : x.client.phase = .sent)
      (h : x.server.buf ++ x.toServer = lineBytes u.command) (h' : ClientQuiet x)
  | finished (hs : x.server.phase.done = true) (hc : x.client.phase = .sent) (h : ServerQuiet x)
      (h' : ClientQuiet x) (hl : x.server.commandLine = some (u.command ++ ['\n']))

/-- A run with fair credentials. -/
structure Talk (u : Setup F) (nonce : Text) (x : Exchange) : Prop where
  joint : Joint u nonce x
  unshut : x.server.shut = false
  nonce : x.server.nonce = nonce
  unread : x.server.commandLine = none ∨ x.server.commandLine = some (u.command ++ ['\n'])
  dropped : x.client.dropped = []

/-- Bytes and steps that are still to come. -/
def owed (u : Setup F) (nonce : Text) (x : Exchange) : ℕ :=
  let c := (lineBytes (challenge u.server.relayId nonce)).length
  let r := (lineBytes (response u.server.relayId (u.mac nonce))).length
  let o := (lineBytes accepted).length
  let m := (lineBytes u.command).length
  x.toServer.length+x.toClient.length+
    match x.server.phase, x.client.phase with
    | .start, _ => c+r+o+m+7
    | .awaitResponse, .awaitChallenge => r+o+m+6
    | .awaitResponse, _ => o+m+5
    | .accepting, _ => o+m+4
    | .awaitCommand, .awaitResult => m+3
    | .awaitCommand, .authenticated => m+2
    | .awaitCommand, _ => 1
    | _, _ => 0

/-- What the two ends make of each other's lines. -/
structure Agrees (u : Setup F) (nonce : Text) : Prop where
  answers : answer u.hmac u.unmarshal u.auth (lineBytes (challenge u.server.relayId nonce)) =
    some (response u.server.relayId (u.mac nonce))
  accepts : ServerConn.checkResponse u.hmac u.parse u.server nonce
    (response u.server.relayId (u.mac nonce) ++ ['\n']) = .accepting
  result : resultOK u.unmarshal (lineBytes accepted) = true
  challenge : '\n' ∉ challenge u.server.relayId nonce
  response : '\n' ∉ response u.server.relayId (u.mac nonce)
  command : '\n' ∉ u.command

theorem agrees (hf : u.Fair c) (hr : u.Reads (randomHex nonceBytes.toList))
    (hc : '\n' ∉ u.command) : Agrees u (randomHex nonceBytes.toList) := by
  have hid : '\n' ∉ u.server.relayId := by
    rw [server_eq hf]
    exact hex_notMem _
  exact ⟨answer_eq hf hr,checkResponse_eq hr,resultOK_eq hr,
    challenge_notMem hid (hex_notMem _),response_notMem hid (hex_notMem _),hc⟩

variable {nonce : Text} {x x' : Exchange}

theorem talk_init (u : Setup F) (nonce : Text) : Talk u nonce (init nonce) :=
  ⟨.start rfl rfl ⟨rfl,rfl⟩ ⟨rfl,rfl⟩,rfl,rfl,.inl rfl,rfl⟩

theorem serve_some {a : ServerConn.Act} (hs : serve u x a = some x') :
    ∃ s, x.server.step u.hmac u.parse u.server a = some s ∧ x' =
      { x with server := s, toClient := x.toClient ++ s.sent.drop x.server.sent.length } := by
  obtain ⟨s,hd,rfl⟩ := Option.map_eq_some_iff.mp hs
  exact ⟨s,hd,rfl⟩

theorem decode?_lineBytes (t : Text) : Utf8.decode? (lineBytes t) = some (t ++ ['\n']) :=
  Utf8.decode?_encode _

theorem talk_greet (h : Talk u nonce x) (hs : step u x .greet = some x') :
    Talk u nonce x' ∧ owed u nonce x' < owed u nonce x := by
  obtain ⟨s,hd,rfl⟩ := serve_some hs
  simp only [ServerConn.step] at hd
  split at hd
  · rename_i hph
    cases hd
    cases h.joint with
    | start _ hc hq hq' =>
      refine ⟨⟨.challenged rfl hc hq ?_,h.unshut,h.nonce,h.unread,h.dropped⟩,?_⟩
      · simp [ServerConn.write,hq'.1,hq'.2,h.nonce]
      · simp only [owed,ServerConn.write,hph,hc,h.nonce,List.length_append,
          List.drop_left]
        omega
    | challenged hp | responded hp | accepting hp | accepted hp | authenticated hp | sent hp =>
      rw [hph] at hp
      cases hp
    | finished hp =>
      rw [hph] at hp
      cases hp
  · cases hd

theorem talk_accept (h : Talk u nonce x) (hs : step u x .accept = some x') :
    Talk u nonce x' ∧ owed u nonce x' < owed u nonce x := by
  obtain ⟨s,hd,rfl⟩ := serve_some hs
  simp only [ServerConn.step] at hd
  split at hd
  · rename_i hph
    cases hd
    cases h.joint with
    | accepting _ hc hq hq' =>
      refine ⟨⟨.accepted rfl hc hq ?_,h.unshut,h.nonce,h.unread,h.dropped⟩,?_⟩
      · simp [ServerConn.write,hq'.1,hq'.2]
      · simp only [owed,ServerConn.write,hph,hc,List.length_append,List.drop_left]
        omega
    | start hp | challenged hp | responded hp | accepted hp | authenticated hp | sent hp =>
      rw [hph] at hp
      cases hp
    | finished hp =>
      rw [hph] at hp
      cases hp
  · cases hd

theorem talk_refuse (h : Talk u nonce x) : step u x .refuse = none := by
  have hne : x.server.phase ≠ .refusing := by
    intro hph
    cases h.joint with
    | start hp | challenged hp | responded hp | accepting hp | accepted hp | authenticated hp
    | sent hp =>
      rw [hph] at hp
      cases hp
    | finished hp =>
      rw [hph] at hp
      cases hp
  unfold step serve ServerConn.step
  dsimp only
  split
  · exact absurd ‹_› hne
  · rfl

theorem talk_toServer {n : ℕ} (h : Talk u nonce x) (hs : step u x (.toServer n) = some x') :
    Talk u nonce x' ∧ owed u nonce x' < owed u nonce x := by
  obtain ⟨⟨hn,hle⟩,hs⟩ := Option.ite_none_right_eq_some.mp hs
  obtain ⟨s,hd,rfl⟩ := Option.map_eq_some_iff.mp hs
  obtain ⟨-,hd⟩ := Option.ite_none_left_eq_some.mp hd
  cases hd
  have hlt : ∀ k, (x.toServer.drop n).length+x.toClient.length+k <
      x.toServer.length+x.toClient.length+k := by
    intro k
    rw [List.length_drop]
    omega
  have hempty : ¬ ServerQuiet x := fun hq => by
    rw [hq.2] at hle
    exact absurd (Nat.le_zero.mp hle) (Nat.ne_of_gt hn)
  have hmore : ∀ {l}, x.server.buf ++ x.toServer = l →
      (x.server.buf ++ x.toServer.take n) ++ x.toServer.drop n = l := by
    intro l hl
    rw [List.append_assoc,List.take_append_drop,hl]
  cases h.joint with
  | responded hp hc hb hq =>
    exact ⟨⟨.responded hp hc (hmore hb) hq,h.unshut,h.nonce,h.unread,h.dropped⟩,hlt _⟩
  | sent hp hc hb hq =>
    exact ⟨⟨.sent hp hc (hmore hb) hq,h.unshut,h.nonce,h.unread,h.dropped⟩,hlt _⟩
  | start _ _ hq | challenged _ _ hq | accepting _ _ hq | accepted _ _ hq | authenticated _ _ hq
  | finished _ _ hq => exact absurd hq hempty

theorem talk_toClient {n : ℕ} (h : Talk u nonce x) (hs : step u x (.toClient n) = some x') :
    Talk u nonce x' ∧ owed u nonce x' < owed u nonce x := by
  obtain ⟨⟨hn,hle⟩,hs⟩ := Option.ite_none_right_eq_some.mp hs
  cases hs
  have hlt : ∀ k, x.toServer.length+(x.toClient.drop n).length+k <
      x.toServer.length+x.toClient.length+k := by
    intro k
    rw [List.length_drop]
    omega
  have hempty : ¬ ClientQuiet x := fun hq => by
    rw [hq.2] at hle
    exact absurd (Nat.le_zero.mp hle) (Nat.ne_of_gt hn)
  have hmore : ∀ {l}, x.client.buf ++ x.toClient = l →
      (x.client.buf ++ x.toClient.take n) ++ x.toClient.drop n = l := by
    intro l hl
    rw [List.append_assoc,List.take_append_drop,hl]
  cases h.joint with
  | challenged hp hc hq hb =>
    exact ⟨⟨.challenged hp hc hq (hmore hb),h.unshut,h.nonce,h.unread,h.dropped⟩,hlt _⟩
  | accepted hp hc hq hb =>
    exact ⟨⟨.accepted hp hc hq (hmore hb),h.unshut,h.nonce,h.unread,h.dropped⟩,hlt _⟩
  | start _ _ _ hq | responded _ _ _ hq | accepting _ _ _ hq | authenticated _ _ _ hq
  | sent _ _ _ hq | finished _ _ _ hq => exact absurd hq hempty

theorem done_checkCommand (parse : Text → Option (Json F)) (line : Text) :
    (ServerConn.checkCommand parse line).done = true := by
  unfold ServerConn.checkCommand
  dsimp only
  split
  · rfl
  · rfl

/-- What the server makes of a line that is there. -/
theorem readLine_eq {s : ServerConn} {t : Text} (ht : '\n' ∉ t) (hb : s.buf = lineBytes t) :
    s.step u.hmac u.parse u.server .readLine =
      match s.phase with
      | .awaitResponse => some { s with
          buf := [], phase := ServerConn.checkResponse u.hmac u.parse u.server s.nonce (t ++ ['\n']) }
      | .awaitCommand => some { s with
          buf := [], commandLine := some (t ++ ['\n'])
          phase := ServerConn.checkCommand u.parse (t ++ ['\n']) }
      | _ => none := by
  have hm : newline ∈ s.buf := hb ▸ newline_mem_lineBytes t
  simp only [ServerConn.step]
  rw [if_pos (.inl hm),hb,first_lineBytes ht,decode?_lineBytes]
  cases s.phase <;> rfl

theorem talk_readLine (ha : Agrees u nonce) (h : Talk u nonce x)
    (hs : step u x .readLine = some x') :
    Talk u nonce x' ∧ owed u nonce x' < owed u nonce x := by
  obtain ⟨s,hd,rfl⟩ := serve_some hs
  have hm : newline ∈ x.server.buf := by
    simp only [ServerConn.step] at hd
    obtain ⟨hm,-⟩ := Option.ite_none_right_eq_some.mp hd
    exact hm.resolve_right (by simp [h.unshut])
  have hempty : ¬ ServerQuiet x := fun hq => by
    rw [hq.1] at hm
    cases hm
  cases h.joint with
  | responded hp hc hb hq =>
    obtain ⟨hbuf,hto⟩ := arrived ha.response hb hm
    rw [readLine_eq ha.response hbuf,hp,h.nonce,ha.accepts] at hd
    cases hd
    refine ⟨⟨.accepting rfl hc ⟨rfl,hto⟩ ⟨hq.1,?_⟩,h.unshut,rfl,h.unread,h.dropped⟩,?_⟩
    · simp [hq.2]
    · simp only [owed,hp,hc,hto,List.drop_length,List.append_nil]
      omega
  | sent hp hc hb hq =>
    obtain ⟨hbuf,hto⟩ := arrived ha.command hb hm
    rw [readLine_eq ha.command hbuf,hp] at hd
    cases hd
    have hdone := done_checkCommand u.parse (u.command ++ ['\n'])
    refine ⟨⟨.finished hdone hc ⟨rfl,hto⟩ ⟨hq.1,?_⟩ rfl,h.unshut,h.nonce,.inr rfl,h.dropped⟩,?_⟩
    · simp [hq.2]
    · have hz : ∀ p : ServerPhase, p.done = true → owed u nonce { x with
          server := { x.server with
            buf := [], commandLine := some (u.command ++ ['\n']), phase := p }
          toClient := x.toClient ++ x.server.sent.drop x.server.sent.length } =
          x.toServer.length+x.toClient.length := by
        intro p hp
        cases p <;> simp_all [owed,ServerPhase.done]
      rw [hz _ hdone,owed,hp,hc]
      exact Nat.lt_succ_self _
  | start _ _ hq | challenged _ _ hq | accepting _ _ hq | accepted _ _ hq | authenticated _ _ hq
  | finished _ _ hq => exact absurd hq hempty

theorem talk_client (ha : Agrees u nonce) (h : Talk u nonce x)
    (hs : step u x .client = some x') :
    Talk u nonce x' ∧ owed u nonce x' < owed u nonce x := by
  cases h.joint with
  | authenticated hp hc hq hq' =>
    simp only [step,hc,Option.some.injEq] at hs
    subst hs
    refine ⟨⟨.sent hp rfl ?_ hq',h.unshut,h.nonce,h.unread,h.dropped⟩,?_⟩
    · simp [hq.1,hq.2]
    · simp only [owed,hp,hc,List.length_append]
      omega
  | challenged hp hc hq hb =>
    simp only [step,hc,clientLine] at hs
    obtain ⟨hm,hs⟩ := Option.ite_none_right_eq_some.mp hs
    obtain ⟨hbuf,hto⟩ := arrived ha.challenge hb hm
    rw [hbuf,first_lineBytes ha.challenge] at hs
    simp only [ha.answers,Option.some.injEq] at hs
    subst hs
    refine ⟨⟨.responded hp rfl ?_ ⟨rfl,hto⟩,h.unshut,h.nonce,h.unread,h.dropped⟩,?_⟩
    · simp [hq.1,hq.2]
    · simp only [owed,hp,hc,hto,List.length_append]
      omega
  | accepted hp hc hq hb =>
    simp only [step,hc,clientLine] at hs
    obtain ⟨hm,hs⟩ := Option.ite_none_right_eq_some.mp hs
    obtain ⟨hbuf,hto⟩ := arrived (by decide) hb hm
    rw [hbuf,first_lineBytes (by decide)] at hs
    simp only [ha.result,if_true,Option.some.injEq] at hs
    subst hs
    refine ⟨⟨.authenticated hp rfl hq ⟨rfl,hto⟩,h.unshut,h.nonce,h.unread,rfl⟩,?_⟩
    simp only [owed,hp,hc]
    omega
  | start _ hc _ hq | responded _ hc _ hq | accepting _ hc _ hq | sent _ hc _ hq
  | finished _ hc _ hq =>
    simp [step,hc,clientLine,hq.1] at hs

theorem talk_step (ha : Agrees u nonce) {a : Act} (h : Talk u nonce x)
    (hs : step u x a = some x') : Talk u nonce x' ∧ owed u nonce x' < owed u nonce x := by
  cases a with
  | greet => exact talk_greet h hs
  | readLine => exact talk_readLine ha h hs
  | refuse =>
    rw [talk_refuse h] at hs
    cases hs
  | accept => exact talk_accept h hs
  | toServer n => exact talk_toServer h hs
  | toClient n => exact talk_toClient h hs
  | client => exact talk_client ha h hs

theorem deliver_toServer (hs : x.server.shut = false) (hne : x.toServer ≠ []) :
    (step u x (.toServer x.toServer.length)).isSome := by
  have hpos := List.length_pos_iff.mpr hne
  simp [step,ServerConn.step,hs,hpos]

theorem deliver_toClient (hne : x.toClient ≠ []) :
    (step u x (.toClient x.toClient.length)).isSome := by
  have hpos := List.length_pos_iff.mpr hne
  simp [step,hpos]

theorem progress (ha : Agrees u nonce) (h : Talk u nonce x) :
    x.server.commandLine = some (u.command ++ ['\n']) ∨ ∃ a, (step u x a).isSome := by
  cases h.joint with
  | start hp => exact .inr ⟨.greet,by simp [step,serve,ServerConn.step,hp]⟩
  | challenged hp hc hq hb =>
    refine .inr ?_
    by_cases hne : x.toClient = []
    · rw [hne,List.append_nil] at hb
      refine ⟨.client,?_⟩
      simp only [step,hc,clientLine]
      rw [if_pos (hb ▸ newline_mem_lineBytes _),hb,first_lineBytes ha.challenge,ha.answers]
      rfl
    · exact ⟨_,deliver_toClient hne⟩
  | responded hp hc hb hq =>
    refine .inr ?_
    by_cases hne : x.toServer = []
    · rw [hne,List.append_nil] at hb
      refine ⟨.readLine,?_⟩
      simp only [step,serve,Option.isSome_map]
      rw [readLine_eq ha.response hb,hp]
      rfl
    · exact ⟨_,deliver_toServer h.unshut hne⟩
  | accepting hp => exact .inr ⟨.accept,by simp [step,serve,ServerConn.step,hp]⟩
  | accepted hp hc hq hb =>
    refine .inr ?_
    by_cases hne : x.toClient = []
    · rw [hne,List.append_nil] at hb
      refine ⟨.client,?_⟩
      simp only [step,hc,clientLine]
      rw [if_pos (hb ▸ newline_mem_lineBytes _),hb,first_lineBytes (by decide)]
      simp only [ha.result,if_true]
      rfl
    · exact ⟨_,deliver_toClient hne⟩
  | authenticated hp hc => exact .inr ⟨.client,by simp [step,hc]⟩
  | sent hp hc hb hq =>
    refine .inr ?_
    by_cases hne : x.toServer = []
    · rw [hne,List.append_nil] at hb
      refine ⟨.readLine,?_⟩
      simp only [step,serve,Option.isSome_map]
      rw [readLine_eq ha.command hb,hp]
      rfl
    · exact ⟨_,deliver_toServer h.unshut hne⟩
  | finished _ _ _ _ hl => exact .inl hl

theorem client_ne_failed (h : Talk u nonce x) : x.client.phase ≠ .failed := by
  cases h.joint with
  | start _ hc | challenged _ hc | responded _ hc | accepting _ hc | accepted _ hc
  | authenticated _ hc | sent _ hc | finished _ hc =>
    rw [hc]
    exact fun he => by cases he

/-- With the credentials of the server the handshake goes through however the bytes are
delivered: no run is longer than a bound, none fails, one that is stuck has brought the
command to the server as it was sent, and no byte is dropped with the buffer of the handshake.
And whatever a client sends, nothing is forwarded unless its first line carries the relay id
and the MAC of the nonce. -/
theorem handshake (c : Credentials) (nonceBytes : Vector UInt8 16) (u : Setup F)
    (hf : u.Fair c) :
    (u.Reads (randomHex nonceBytes.toList) → '\n' ∉ u.command →
      (∀ x, Reach (step u) anyStep (init (randomHex nonceBytes.toList)) x →
        x.client.phase ≠ .failed ∧ x.client.dropped = [] ∧
        (x.server.commandLine = none ∨ x.server.commandLine = some (u.command ++ ['\n'])) ∧
        (x.server.commandLine = some (u.command ++ ['\n']) ∨ ∃ a, (step u x a).isSome)) ∧
      ∃ bound, ∀ acts x,
        run (step u) anyStep (init (randomHex nonceBytes.toList)) acts = some x →
          acts.length ≤ bound) ∧
    ∀ s, Reach (ServerConn.step u.hmac u.parse u.server) anyStep
        (.init (randomHex nonceBytes.toList)) s → s.forwarded ≠ [] →
      Carries u.hmac u.parse u.server (randomHex nonceBytes.toList)
        (Lines.first newline s.received).1 := by
  constructor
  · intro hr hc
    have ha := agrees hf hr hc
    refine ⟨fun x hx => ?_,owed u (randomHex nonceBytes.toList)
      (init (randomHex nonceBytes.toList)),fun acts x hx => ?_⟩
    · have h := hx.inv (talk_init u _) (fun _ _ _ h _ hs => (talk_step ha h hs).1)
      exact ⟨client_ne_failed h,h.dropped,h.unread,progress ha h⟩
    · have h := length_main_of_run (owed u _) (fun _ => true)
        (fun _ _ _ h hs => (talk_step ha h hs).1) (fun _ _ _ h hs => (talk_step ha h hs).2) acts
        (talk_init u _) hx
      rw [List.filter_true] at h
      omega
  · intro s hs hne
    have hid : u.server.relayId ≠ [] := by
      rw [server_eq hf]
      exact relayId_ne_nil c
    have hg := hs.inv (ServerConn.guarded_init _) (fun _ _ _ h _ hs => h.step hid hs)
    exact (hg.carried (.inr hne)).2

def sampleCredentials : Credentials := ⟨.replicate 16 7,.replicate 32 200⟩

def sampleNonce : Text := randomHex (Vector.replicate 16 9).toList

def sampleHmac : Hmac := fun key message =>
  .ofFn (fun i => key.getD i 0+.ofNat message.length)

def sampleServer : RelayServer :=
  ⟨sampleCredentials.relayId,sampleCredentials.tokenBytes.toList⟩

def sampleMac : Text :=
  hexEncode (sampleHmac sampleServer.relayToken
    (Utf8.encode (macMessage sampleServer.relayId sampleNonce))).toList

def sampleSetup : Setup Unit where
  hmac := sampleHmac
  parse t :=
    if t = response sampleServer.relayId sampleMac then
      some (.obj [("mac",.str sampleMac),("relay_id",.str sampleServer.relayId)])
    else none
  unmarshal l :=
    if l = lineBytes accepted then some (.obj [("ok",.bool true)])
    else if l = lineBytes (challenge sampleServer.relayId sampleNonce) then
      some (.obj [("protocol",.str "limux-relay-auth".toList),("version",.num (.int 1)),
        ("relay_id",.str sampleServer.relayId),("nonce",.str sampleNonce)])
    else none
  server := sampleServer
  auth := ⟨sampleCredentials.relayId,sampleCredentials.relayToken⟩
  command := "list_workspaces".toList

theorem sample_reads : sampleSetup.Reads sampleNonce := by
  have hne : lineBytes (challenge sampleServer.relayId sampleNonce) ≠ lineBytes accepted := by
    decide +kernel
  constructor
  · simp only [sampleSetup,hne,if_false,if_true]
  · simp only [sampleSetup,if_true]
  · simp only [sampleSetup]
    exact if_pos rfl

def sampleActs : List Act :=
  [.greet,.toClient 133,.client,.toServer 121,.readLine,.accept,.toClient 12,.client,.client,
    .toServer 16,.readLine]

def sampleServerActs : List ServerConn.Act :=
  [.greet,.arrive (lineBytes (response sampleServer.relayId sampleMac) ++
    lineBytes "list_workspaces".toList),.readLine,.accept,.readLine,.forward []]

theorem handshake_sample :
    (∃ x, Reach (step sampleSetup) anyStep (init sampleNonce) x ∧
      x.server.commandLine = some "list_workspaces\n".toList ∧ x.client.phase ≠ .failed ∧
      x.client.dropped = []) ∧
    ∃ s, Reach (ServerConn.step sampleSetup.hmac sampleSetup.parse sampleSetup.server) anyStep
        (.init sampleNonce) s ∧ s.forwarded = ["list_workspaces".toList] ∧
      Carries sampleSetup.hmac sampleSetup.parse sampleSetup.server sampleNonce
        (Lines.first newline s.received).1 := by
  have h := handshake sampleCredentials (.replicate 16 9) sampleSetup
    ⟨start_eq sampleCredentials,rfl⟩
  obtain ⟨x,hx,hl⟩ : ∃ x, Reach (step sampleSetup) anyStep (init sampleNonce) x ∧
      x.server.commandLine = some "list_workspaces\n".toList :=
    reach_of_glance (fun x : Exchange => x.server.commandLine) sampleActs (by decide +kernel)
  obtain ⟨s,hs,hf⟩ : ∃ s, Reach (ServerConn.step sampleSetup.hmac sampleSetup.parse
      sampleSetup.server) anyStep (.init sampleNonce) s ∧
      s.forwarded = ["list_workspaces".toList] :=
    reach_of_glance (fun s : ServerConn => s.forwarded) sampleServerActs (by decide +kernel)
  obtain ⟨hfailed,hdropped,-⟩ := (h.1 sample_reads (by decide)).1 x hx
  exact ⟨⟨x,hx,hl,hfailed,hdropped⟩,s,hs,hf,h.2 s hs (by rw [hf]; exact List.cons_ne_nil _ _)⟩

end Exchange

end RelayAuth

end Limux
