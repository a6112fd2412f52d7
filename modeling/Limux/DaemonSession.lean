import Limux.Daemon
import Mathlib.Data.Char
import Mathlib.Data.List.Lex

/-! The sessions of the remote daemon (`daemon/remote/cmd/limuxd-remote/main.go`): the
terminals attached to each, and the size that fits all of them. -/
namespace Limux

namespace Daemon

structure SessionAttachment where
  cols : ℤ
  rows : ℤ
  updatedAt : Text

structure SessionState where
  attachments : HashMap Text SessionAttachment
  effectiveCols : ℤ
  effectiveRows : ℤ
  lastKnownCols : ℤ
  lastKnownRows : ℤ

/-- The part of `rpcServer` that has to do with sessions. -/
structure Sessions where
  nextSessionID : ℕ
  sessions : HashMap Text SessionState

def smaller (m n : ℤ) : ℤ := if m = 0 ∨ n < m then n else m

def minSizes (l : List SessionAttachment) : ℤ × ℤ :=
  l.foldl (fun m a => (smaller m.1 a.cols,smaller m.2 a.rows)) (0,0)

def recomputeSessionSize (session : SessionState) : SessionState :=
  if HashMap.values session.attachments = [] then
    { session with
      effectiveCols := session.lastKnownCols
      effectiveRows := session.lastKnownRows }
  else
    let (minCols,minRows) := minSizes (HashMap.values session.attachments)
    { session with
      effectiveCols := minCols
      effectiveRows := minRows
      lastKnownCols := minCols
      lastKnownRows := minRows }

variable {F : Type}

def attachmentJson (attachmentID : Text) (a : SessionAttachment) : Json F :=
  .obj [("attachment_id",.str attachmentID),("cols",.num (.int a.cols)),
    ("rows",.num (.int a.rows)),("updated_at",.str a.updatedAt)]

def sessionSnapshot (sessionID : Text) (session : SessionState) : List (String × Json F) :=
  let attachments := session.attachments.entries.mergeSort (fun a b => decide (a.1 ≤ b.1))
  [("attachments",.arr (attachments.map (fun a => attachmentJson a.1 a.2))),
    ("effective_cols",.num (.int session.effectiveCols)),
    ("effective_rows",.num (.int session.effectiveRows)),
    ("last_known_cols",.num (.int session.lastKnownCols)),
    ("last_known_rows",.num (.int session.lastKnownRows)),("session_id",.str sessionID)]

def badParam (method what : String) : RpcFault :=
  ⟨"invalid_params",method.toList ++ " requires ".toList ++ what.toList⟩

def requireParam (req : RpcRequest F) (method key : String) : Except RpcFault Text :=
  match req.requireString key with
  | some value => .ok value
  | none => .error (badParam method key)

def requireSize (trunc : F → Option ℤ) (req : RpcRequest F) (method key : String) :
    Except RpcFault ℤ :=
  match RpcRequest.getIntParam trunc req.params key with
  | none => .error (badParam method (key ++ " > 0"))
  | some n => if n ≤ 0 then .error (badParam method (key ++ " > 0")) else .ok n

def parseSessionAttachmentParams (trunc : F → Option ℤ) (req : RpcRequest F)
    (method : String) : Except RpcFault (Text × Text × ℤ × ℤ) := do
  let sessionID ← requireParam req method "session_id"
  let attachmentID ← requireParam req method "attachment_id"
  let cols ← requireSize trunc req method "cols"
  let rows ← requireSize trunc req method "rows"
  return (sessionID,attachmentID,cols,rows)

def noSession : RpcFault := ⟨"not_found","session not found".toList⟩

def noAttachment : RpcFault := ⟨"not_found","attachment not found".toList⟩

namespace Sessions

def init : Sessions := ⟨1,∅⟩

def put (s : Sessions) (sessionID : Text) (session : SessionState) : Sessions :=
  { s with sessions := s.sessions.insert sessionID session }

def handleSessionOpen (s : Sessions) (req : RpcRequest F) : Sessions × RpcResponse F :=
  let given := (RpcRequest.getStringParam req.params "session_id").getD []
  let s' := if given = [] then { s with nextSessionID := s.nextSessionID+1 } else s
  let sessionID := if given = [] then "sess-".toList ++ Text.ofNat s.nextSessionID else given
  match s'.sessions.lookup sessionID with
  | some session => (s',.success req.id (sessionSnapshot sessionID session))
  | none =>
    let session : SessionState := ⟨∅,0,0,0,0⟩
    (s'.put sessionID session,.success req.id (sessionSnapshot sessionID session))

def handleSessionClose (s : Sessions) (req : RpcRequest F) : Sessions × RpcResponse F :=
  match requireParam req "session.close" "session_id" with
  | .error e => (s,⟨req.id,.error e⟩)
  | .ok sessionID =>
    match s.sessions.lookup sessionID with
    | none => (s,⟨req.id,.error noSession⟩)
    | some _ => ({ s with sessions := s.sessions.erase sessionID },
        .success req.id [("closed",.bool true),("session_id",.str sessionID)])

def setAttachments (s : Sessions) (id : Json F) (sessionID : Text) (session : SessionState)
    (attachments : HashMap Text SessionAttachment) : Sessions × RpcResponse F :=
  let session := recomputeSessionSize { session with attachments := attachments }
  (s.put sessionID session,.success id (sessionSnapshot sessionID session))

def handleSessionAttach (trunc : F → Option ℤ) (now : Text) (s : Sessions)
    (req : RpcRequest F) : Sessions × RpcResponse F :=
  match parseSessionAttachmentParams trunc req "session.attach" with
  | .error e => (s,⟨req.id,.error e⟩)
  | .ok (sessionID,attachmentID,cols,rows) =>
    match s.sessions.lookup sessionID with
    | none => (s,⟨req.id,.error noSession⟩)
    | some session => s.setAttachments req.id sessionID session
        (session.attachments.insert attachmentID ⟨cols,rows,now⟩)

def handleSessionResize (trunc : F → Option ℤ) (now : Text) (s : Sessions)
    (req : RpcRequest F) : Sessions × RpcResponse F :=
  match parseSessionAttachmentParams trunc req "session.resize" with
  | .error e => (s,⟨req.id,.error e⟩)
  | .ok (sessionID,attachmentID,cols,rows) =>
    match s.sessions.lookup sessionID with
    | none => (s,⟨req.id,.error noSession⟩)
    | some session =>
      match session.attachments.lookup attachmentID with
      | none => (s,⟨req.id,.error noAttachment⟩)
      | some _ => s.setAttachments req.id sessionID session
          (session.attachments.insert attachmentID ⟨cols,rows,now⟩)

def handleSessionDetach (s : Sessions) (req : RpcRequest F) : Sessions × RpcResponse F :=
  match requireParam req "session.detach" "session_id" with
  | .error e => (s,⟨req.id,.error e⟩)
  | .ok sessionID =>
    match requireParam req "session.detach" "attachment_id" with
    | .error e => (s,⟨req.id,.error e⟩)
    | .ok attachmentID =>
      match s.sessions.lookup sessionID with
      | none => (s,⟨req.id,.error noSession⟩)
      | some session =>
        match session.attachments.lookup attachmentID with
        | none => (s,⟨req.id,.error noAttachment⟩)
        | some _ => s.setAttachments req.id sessionID session
            (session.attachments.erase attachmentID)

def handleSessionStatus (s : Sessions) (req : RpcRequest F) : Sessions × RpcResponse F :=
  match requireParam req "session.status" "session_id" with
  | .error e => (s,⟨req.id,.error e⟩)
  | .ok sessionID =>
    match s.sessions.lookup sessionID with
    | none => (s,⟨req.id,.error noSession⟩)
    | some session => (s,.success req.id (sessionSnapshot sessionID session))

/-- The handler of a request that has to do with sessions, at the time `now`. -/
def handleRequest (trunc : F → Option ℤ) (now : Text) (s : Sessions) (req : RpcRequest F) :
    Option (Sessions × RpcResponse F) :=
  if req.method = "session.open".toList then some (s.handleSessionOpen req)
  else if req.method = "session.close".toList then some (s.handleSessionClose req)
  else if req.method = "session.attach".toList then some (s.handleSessionAttach trunc now req)
  else if req.method = "session.resize".toList then some (s.handleSessionResize trunc now req)
  else if req.method = "session.detach".toList then some (s.handleSessionDetach req)
  else if req.method = "session.status".toList then some (s.handleSessionStatus req)
  else none

end Sessions

end Daemon

end Limux
