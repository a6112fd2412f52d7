import Limux.Workspace
import Limux.Lib.Number

/-! The arguments of `ssh` and `scp` made of a remote configuration
(`app/src/remote/config.rs`, `bootstrap.rs`, `file_drop.rs` and `shell.rs`). -/
namespace Limux

namespace RemoteConfiguration

/-- Whether one of the options starts with the key, and ends there or goes on with `=`. -/
def hasSshOption (c : RemoteConfiguration) (key : String) : Bool :=
  c.sshOptions.any (fun o => key.toList.isPrefixOf o.toList &&
    (o.toList.length = key.toList.length || o.toList[key.toList.length]? = some '='))

def connectionArgs (portFlag : String) (c : RemoteConfiguration) : List String :=
  c.port.toList.flatMap (fun p => [portFlag,toString p.toNat]) ++
    (c.identityFile.toList.flatMap (fun identity => ["-i",identity]) ++
      c.sshOptions.flatMap (fun opt => ["-o",opt]))

def appendConnectionArgs (c : RemoteConfiguration) (args : List String) : List String :=
  args ++ connectionArgs "-p" c

def hostKeyDefault (c : RemoteConfiguration) : List String :=
  if c.hasSshOption "StrictHostKeyChecking" then []
  else ["-o","StrictHostKeyChecking=accept-new"]

def sshInteractiveArgs (c : RemoteConfiguration) : List String :=
  c.appendConnectionArgs (["-o","ServerAliveInterval=20","-o","ServerAliveCountMax=2"] ++
    c.hostKeyDefault)

def sshBatchArgs (c : RemoteConfiguration) : List String :=
  c.appendConnectionArgs (["-o","ConnectTimeout=6","-o","ServerAliveInterval=20",
    "-o","ServerAliveCountMax=2"] ++ c.hostKeyDefault ++
    ["-o","BatchMode=yes","-o","ControlMaster=no"])

def uploadDaemonArgs (c : RemoteConfiguration) (localPath tempScp : String) : List String :=
  ["-q"] ++ c.hostKeyDefault ++ ["-o","ControlMaster=no"] ++ connectionArgs "-P" c ++
    [localPath,c.destination ++ ":" ++ tempScp]

def scpBaseArgs (c : RemoteConfiguration) : List String :=
  ["-o","BatchMode=yes","-o","StrictHostKeyChecking=accept-new"] ++ connectionArgs "-P" c

def sshCommand (c : RemoteConfiguration) : String :=
  match c.terminalStartupCommand with
  | some cmd => cmd
  | none => " ".intercalate (["ssh"] ++ c.sshInteractiveArgs ++ [c.destination])

end RemoteConfiguration

def generateBootstrapScript (relayPort : UInt16) : String :=
  "export PATH=\"$HOME/.limux/bin:$PATH\"\nexport LIMUX_SOCKET_PATH='127.0.0.1:" ++
    toString relayPort.toNat ++
    "'\nexport COLORTERM='truecolor'\nexport TERM_PROGRAM='ghostty'\nexec \"$SHELL\" -il"

/-- `replace('\'', "'\\''")`. -/
def escapeQuotes (s : Text) : Text := s.flatMap (fun c => if c = '\'' then "'\\''".toList else [c])

def generateStartupCommand (c : RemoteConfiguration) (relayPort : UInt16) : String :=
  let escaped := String.ofList (escapeQuotes (generateBootstrapScript relayPort).toList)
  " ".intercalate (["ssh"] ++ c.sshInteractiveArgs ++ ["-t",c.destination] ++
    ["'" ++ escaped ++ "'"])

end Limux
