import SystemsLab.CLib.Bytes
import Mathlib.Data.Finset.Card
import Mathlib.Data.Finset.Lattice.Basic
import Mathlib.Data.Finset.Option
import Mathlib.Data.Finset.Dedup
import Mathlib.Data.Finset.SDiff

/-! The chat server (`week12/w12_server.c`): its table of descriptors, its handlers, and its loop over
what `poll` reports. -/

namespace SystemsLab.Chat

open CLib

def maxLine : ℕ := 512
def maxUsername : ℕ := 20
def nConnections : ℕ := 10000

inductive MessageType where
  | newUser
  | userLeft
  | userMessage
deriving DecidableEq

/-- `sizeof(message)`. A `message` is written and read as its bytes. -/
def messageSize : ℕ := 4 + maxLine + maxUsername

def typeOf (msg : Bytes) : Option MessageType :=
  match ofLeBytes (msg.take 4) with
  | 0 => some .newUser
  | 1 => some .userLeft
  | 2 => some .userMessage
  | _ => none

def messageOf (msg : Bytes) : Bytes := cstr ((msg.drop 4).take maxLine)

def usernameOf (msg : Bytes) : Bytes := cstr (msg.drop (4 + maxLine))

/-- What `read` leaves in a `message` that was cleared before. -/
def cleared (data : Bytes) : Bytes := data ++ List.replicate (messageSize - data.length) 0

inductive ExitCode where
  | selectFailure
  | writeFailure
  | readFailure
  | acceptFailure
deriving DecidableEq

/-- How the server stops: by `exit`, or by a write behind the end of `fds`. -/
inductive Stop where
  | exit (code : ExitCode)
  | overrun
deriving DecidableEq

inductive Line where
  | joined (username : Bytes) (nClients : ℕ)
  | left (username : Bytes) (nClients : ℕ)
  | got (length : ℕ) (username : Bytes)
deriving DecidableEq

inductive Effect where
  | write (fd : ℕ) (data : Bytes)
  | close (fd : ℕ)
  | print (line : Line)
deriving DecidableEq

/-- An entry of `fds`, with the bit `POLLIN` of its `revents`. -/
structure Pollfd where
  fd : ℕ
  pollin : Bool
deriving DecidableEq

/-- `fds` holds the first `nfds` entries of the array. -/
structure Server where
  listenfd : ℕ
  fds : List Pollfd
  nClients : ℕ
deriving DecidableEq

inductive ReadResult where
  | data (bytes : Bytes)
  | eof
  | reset
  | error
deriving DecidableEq

def handleNewConnection (server : Server) : Option ℕ → Except Stop Server
  | none => .error (.exit .acceptFailure)
  | some connFd =>
    if server.fds.length < nConnections then
      .ok { server with fds := server.fds ++ [⟨connFd, false⟩] }
    else .error .overrun

def handleDisconnection (server : Server) (i : ℕ) (username : Bytes) : Server × List Effect :=
  let nClients := if server.nClients ≠ 0 then server.nClients - 1 else server.nClients
  ({ server with fds := server.fds.eraseIdx i, nClients := nClients },
    (server.fds[i]?.toList.map fun entry => .close entry.fd) ++ [.print (.left username nClients)])

def broadcastMessage (msg : Bytes) (senderIndex : ℕ) (fds : List Pollfd) : List Effect :=
  fds.zipIdx.filterMap fun (entry, i) =>
    if i = 0 ∨ i = senderIndex then none else some (.write entry.fd msg)

/-- `handle_client_data`, where `broken` tells that a write of the broadcast fails. -/
def handleClientData (server : Server) (i : ℕ) (broken : Bool) :
    ReadResult → Except Stop (Server × List Effect)
  | .data bytes =>
    let msg := cleared bytes
    match typeOf msg with
    | none => .ok (server, [])
    | some type =>
      if broken then .error (.exit .writeFailure)
      else
        let writes := broadcastMessage msg i server.fds
        match type with
        | .newUser =>
          let nClients := server.nClients + 1
          .ok ({ server with nClients := nClients },
            writes ++ [.print (.joined (usernameOf msg) nClients)])
        | .userLeft =>
          let (server, effects) := handleDisconnection server i (usernameOf msg)
          .ok (server, writes ++ effects)
        | .userMessage =>
          .ok (server, writes ++ [.print (.got (messageOf msg).length (usernameOf msg))])
  | .eof | .reset => .ok (handleDisconnection server i (ascii "An unknown user"))
  | .error => .error (.exit .readFailure)

/-- The server in its loop: `scan` is the index `i` of the loop over `fds`, or it is at `poll`. The
connections that are open at the server's end, and those of them on which a `NEW_USER` has been
processed, are those of the kernel and of what has come in. -/
structure World where
  server : Server
  scan : Option ℕ
  sockets : Finset ℕ
  joined : Finset ℕ
deriving DecidableEq

/-- What the calls of one step of the loop return, and if a write of a broadcast fails. -/
structure Input where
  ready : Option (ℕ → Bool)
  conn : Option ℕ
  read : ReadResult
  broken : Bool

def start (listenfd : ℕ) : World := ⟨⟨listenfd, [⟨listenfd, false⟩], 0⟩, none, ∅, ∅⟩

def closedBy (effects : List Effect) : List ℕ :=
  effects.filterMap fun
    | .close fd => some fd
    | _ => none

def ReadResult.type? : ReadResult → Option MessageType
  | .data bytes => typeOf (cleared bytes)
  | _ => none

/-- `poll`, or one turn of the loop over `fds`. -/
def step (w : World) (input : Input) : Except Stop World :=
  match w.scan with
  | none =>
    match input.ready with
    | none => .error (.exit .selectFailure)
    | some ready => .ok { w with
      server := { w.server with
        fds := w.server.fds.mapIdx fun i entry => { entry with pollin := ready i } }
      scan := some 0 }
  | some i =>
    match w.server.fds[i]? with
    | none => .ok { w with scan := none }
    | some entry =>
      let next := { w with scan := some (i + 1) }
      if !entry.pollin then .ok next
      else if entry.fd = w.server.listenfd then do
        let server ← handleNewConnection w.server input.conn
        let opened := input.conn.toFinset
        .ok { next with server := server, sockets := w.sockets ∪ opened, joined := w.joined \ opened }
      else do
        let (server, effects) ← handleClientData w.server i input.broken input.read
        let joined := if input.read.type? = some .newUser then insert entry.fd w.joined else w.joined
        let closed := (closedBy effects).toFinset
        .ok { next with server := server, sockets := w.sockets \ closed, joined := joined }

end SystemsLab.Chat
