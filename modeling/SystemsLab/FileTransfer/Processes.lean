import SystemsLab.FileTransfer.Packets
import SystemsLab.Streams.Transfers
import Mathlib.Logic.Function.Basic

/-! The two programs of `week10` on one connection. A step is one system call of one of them, with
what the program does up to the next one; `k` is the number of bytes that the call moves. -/

namespace SystemsLab.FileTransfer

open CLib Streams

abbrev Directory := Bytes → Option Bytes

abbrev CString := { b : Bytes // (0 : UInt8) ∉ b }

inductive Line where
  | sending (fileName : Bytes)
  | sent (totalCharsSent : ℕ)
  | fileName (fileName : Bytes)
  | received (totalCharsReceived : ℕ)
deriving DecidableEq

/-- `prompt` is the call of `readline`. The connection is closed after the loop: `failed` if an error
ended it. -/
inductive ClientPhase where
  | prompt
  | sendFileName
  | receiveAck
  | readFile
  | sendFileData
  | sendEof
  | closed
  | failed
deriving DecidableEq

/-- `buf` is what `write_all` has still to write, or what `read_full` has read; `fd` is the rest of
the open file, and `lines` is what will be typed. -/
structure Client where
  phase : ClientPhase
  lines : List CString
  fileName : Bytes
  fd : Bytes
  buf : Bytes
  fileData : Data
  totalCharsSent : ℕ
  stdout : List Line

/-- `disconnected` and `failed` are the ends of the loop for this connection: `read_full` has found
its end where a file name may begin, or an error. -/
inductive ServerPhase where
  | receiveFileName
  | sendAck
  | receiveFileData
  | writeFile
  | disconnected
  | failed
deriving DecidableEq

/-- `size` is the size in the last packet. -/
structure Server where
  phase : ServerPhase
  buf : Bytes
  copyFileName : Bytes
  size : ℕ
  totalCharsReceived : ℕ
  directory : Directory
  stdout : List Line

/-- `up` and `down` are the two directions of the connection. -/
structure State where
  client : Client
  server : Server
  up : Bytes
  down : Bytes

def start (lines : List CString) (directory : Directory) : State where
  client :=
    { phase := .prompt, lines, fileName := [], fd := [], buf := [], fileData := .zeroed .sendFileData
      totalCharsSent := 0, stdout := [] }
  server :=
    { phase := .receiveFileName, buf := [], copyFileName := [], size := 0, totalCharsReceived := 0
      directory, stdout := [] }
  up := []
  down := []

section Client

def isValidFileName (fileName : Bytes) : Bool :=
  let len := fileName.length
  if len = 0 ∨ len ≥ 50 then false
  else if '.'.toUInt8 ∈ fileName ∨ '/'.toUInt8 ∈ fileName then false
  else true

def openFile (files : Directory) (fileName : Bytes) : Option Bytes :=
  if isValidFileName fileName then
    match files fileName with
    | none => none
    | some content => if content.length ≥ 200000 then none else some content
  else none

def Client.readLine (files : Directory) (client : Client) : Client :=
  match client.lines with
  | [] => { client with phase := .closed }
  | line :: lines =>
    if line.val = ascii "quit" then { client with phase := .closed, lines }
    else
      match openFile files line.val with
      | none => { client with lines }
      | some content =>
        { client with
          phase := .sendFileName, lines, fileName := line.val, fd := content
          buf := (fileNameData line.val).bytes }

def Client.handleAck (client : Client) (ackData : Data) : Client :=
  if ackData.operation ≠ Operation.ack.value then { client with phase := .failed }
  else
    { client with
      phase := .readFile, buf := [], totalCharsSent := 0, fileData := .zeroed .sendFileData
      stdout := client.stdout ++ [.sending client.fileName] }

/-- A `read` of the file. -/
def Client.readPiece (k : ℕ) (client : Client) : Option Client :=
  if client.fd = [] then
    some { client with phase := .sendEof, buf := (Data.zeroed .endOfFile).bytes }
  else if h : 0 < k ∧ k ≤ maxLine ∧ k ≤ client.fd.length then
    let fileData := client.fileData.fill (client.fd.take k) ((List.length_take_le k _).trans h.2.1)
    some { client with phase := .sendFileData, fd := client.fd.drop k, fileData, buf := fileData.bytes }
  else none

/-- After `write_all`. -/
def Client.written (client : Client) : Client :=
  match client.phase with
  | .sendFileName => { client with phase := .receiveAck }
  | .sendFileData =>
    { client with
      phase := .readFile, totalCharsSent := client.totalCharsSent + client.fileData.size.toNat }
  | .sendEof =>
    { client with phase := .prompt, stdout := client.stdout ++ [.sent client.totalCharsSent] }
  | _ => client

def Client.hasClosed (client : Client) : Prop := client.phase = .closed ∨ client.phase = .failed

end Client

section Server

def Server.handleFileName (server : Server) (fileNameData : Data) : Server :=
  -- the last byte is set to NUL
  let fileName := cstr (fileNameData.data.set (maxLine - 1) 0)
  if fileNameData.operation ≠ Operation.sendFileName.value then { server with phase := .failed }
  else
    let copyFileName := (fileName ++ ascii "_copy").take (maxLine + 5)
    { server with
      phase := .sendAck, buf := (Data.zeroed .ack).bytes, copyFileName
      directory := Function.update server.directory copyFileName (some [])
      stdout := server.stdout ++ [.fileName fileName] }

def Server.closeFile (server : Server) (phase : ServerPhase) : Server :=
  { server with phase, buf := [], stdout := server.stdout ++ [.received server.totalCharsReceived] }

def Server.handleFileData (server : Server) (data : Data) : Server :=
  if data.operation = Operation.endOfFile.value then server.closeFile .receiveFileName
  else if data.operation ≠ Operation.sendFileData.value ∨ data.size.toNat > maxLine then
    server.closeFile .failed
  else if server.totalCharsReceived + data.size.toNat ≥ 200000 then server.closeFile .failed
  else
    { server with
      phase := .writeFile, buf := data.data.take data.size.toNat, size := data.size.toNat }

def Server.handle (server : Server) (data : Data) : Server :=
  match server.phase with
  | .receiveFileName => server.handleFileName data
  | .receiveFileData => server.handleFileData data
  | _ => server

/-- `read_full` has come to the end of the stream, or to it inside a packet. -/
def Server.handleEnd (server : Server) : Server :=
  match server.phase with
  | .receiveFileName =>
    { server with phase := if server.buf = [] then .disconnected else .failed }
  | _ => server.closeFile .failed

/-- After `write_all`. -/
def Server.written (server : Server) : Server :=
  match server.phase with
  | .sendAck => { server with phase := .receiveFileData, totalCharsReceived := 0 }
  | .writeFile =>
    { server with
      phase := .receiveFileData, totalCharsReceived := server.totalCharsReceived + server.size }
  | _ => server

/-- A `write` to the end of the copy. -/
def Server.append (server : Server) (bytes : Bytes) : Directory :=
  Function.update server.directory server.copyFileName
    ((server.directory server.copyFileName).map (· ++ bytes))

def Server.hasClosed (server : Server) : Prop := server.phase = .disconnected ∨ server.phase = .failed

end Server

instance (client : Client) : Decidable client.hasClosed := instDecidableOr

instance (server : Server) : Decidable server.hasClosed := instDecidableOr

section Steps

variable (files : Directory) (capacity k : ℕ)

/-- A `write` of `write_all`, where no more than `capacity` bytes are in the socket. -/
def State.clientWrites (s : State) : Option State :=
  if s.client.buf = [] then some { s with client := s.client.written }
  else if s.server.hasClosed then some { s with client := { s.client with phase := .failed } }
  else
    (transfer k (capacity - s.up.length) s.client.buf s.up).map fun (buf, up) =>
      { s with client := { s.client with buf }, up }

/-- A `read` of `read_full`. -/
def State.clientReads (s : State) : Option State :=
  if h : s.client.buf.length = dataSize then
    some { s with client := s.client.handleAck (deserializeData (.ofMemory s.client.buf h)) }
  else if s.down = [] ∧ s.server.hasClosed then
    some { s with client := { s.client with phase := .failed } }
  else
    (transfer k (dataSize - s.client.buf.length) s.down s.client.buf).map fun (down, buf) =>
      { s with client := { s.client with buf }, down }

def State.serverWrites (s : State) : Option State :=
  if s.server.buf = [] then some { s with server := s.server.written }
  else if s.client.hasClosed then some { s with server := { s.server with phase := .failed } }
  else
    (transfer k (capacity - s.down.length) s.server.buf s.down).map fun (buf, down) =>
      { s with server := { s.server with buf }, down }

def State.serverReads (s : State) : Option State :=
  if h : s.server.buf.length = dataSize then
    some { s with server := s.server.handle (deserializeData (.ofMemory s.server.buf h)) }
  else if s.up = [] ∧ s.client.hasClosed then some { s with server := s.server.handleEnd }
  else
    (transfer k (dataSize - s.server.buf.length) s.up s.server.buf).map fun (up, buf) =>
      { s with server := { s.server with buf }, up }

def State.serverWritesFile (s : State) : Option State :=
  if s.server.buf = [] then some { s with server := s.server.written }
  else
    (transfer k s.server.buf.length s.server.buf []).map fun (buf, bytes) =>
      { s with server := { s.server with buf, directory := s.server.append bytes } }

def clientStep (s : State) : Option State :=
  match s.client.phase with
  | .prompt => some { s with client := s.client.readLine files }
  | .receiveAck => s.clientReads k
  | .readFile => (s.client.readPiece k).map fun client => { s with client }
  | .sendFileName | .sendFileData | .sendEof => s.clientWrites capacity k
  | .closed | .failed => none

def serverStep (s : State) : Option State :=
  match s.server.phase with
  | .receiveFileName | .receiveFileData => s.serverReads k
  | .sendAck => s.serverWrites capacity k
  | .writeFile => s.serverWritesFile k
  | .disconnected | .failed => none

end Steps

/-- A call that is interrupted is made again, and nothing has changed. -/
inductive Action where
  | client (k : ℕ)
  | server (k : ℕ)
  | interrupted
deriving DecidableEq

def step (files : Directory) (capacity : ℕ) (s : State) : Action → Option State
  | .client k => clientStep files capacity k s
  | .server k => serverStep capacity k s
  | .interrupted => some s

def run (files : Directory) (capacity : ℕ) : State → List Action → Option State
  | s, [] => some s
  | s, action :: actions => (step files capacity s action).bind fun s' => run files capacity s' actions

end SystemsLab.FileTransfer
