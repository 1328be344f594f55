import SystemsLab.FileTransfer.Processes

namespace SystemsLab.FileTransfer

open CLib Streams

def copyName (fileName : Bytes) : Bytes := fileName ++ ascii "_copy"

/-- The names that the client accepts, up to a `quit`. -/
def accepted (files : Directory) : List CString → List Bytes
  | [] => []
  | line :: lines =>
    if line.val = ascii "quit" then []
    else
      match openFile files line.val with
      | none => accepted files lines
      | some _ => line.val :: accepted files lines

def copies (files directory : Directory) (names : List Bytes) : Directory :=
  names.foldl (fun d name => Function.update d (copyName name) (files name)) directory

def fileSize (files : Directory) (name : Bytes) : ℕ :=
  match files name with
  | none => 0
  | some content => content.length

def sentLines (files : Directory) (name : Bytes) : List Line :=
  [.sending name, .sent (fileSize files name)]

def receivedLines (files : Directory) (name : Bytes) : List Line :=
  [.fileName name, .received (fileSize files name)]

def isFileName (data : Data) : Bool := data.operation = Operation.sendFileName.value

def Client.rest (client : Client) : Bytes :=
  match client.phase with
  | .sendFileName | .sendFileData | .sendEof => client.buf
  | _ => []

def Client.got (client : Client) : Bytes :=
  match client.phase with
  | .receiveAck => client.buf
  | _ => []

def Client.awaits (client : Client) : ℕ :=
  match client.phase with
  | .sendFileName | .receiveAck => 1
  | _ => 0

def Server.rest (server : Server) : Bytes :=
  match server.phase with
  | .sendAck => server.buf
  | _ => []

def Server.got (server : Server) : Bytes :=
  match server.phase with
  | .receiveFileName | .receiveFileData => server.buf
  | _ => []

def Client.writes (client : Client) : Prop :=
  client.phase = .sendFileName ∨ client.phase = .sendFileData ∨ client.phase = .sendEof

def Server.reads (server : Server) : Prop :=
  server.phase = .receiveFileName ∨ server.phase = .receiveFileData

def Server.settle (server : Server) : Server :=
  match server.phase with
  | .sendAck => { server.written with buf := [] }
  | .writeFile => { server.written with buf := [], directory := server.append server.buf }
  | _ => { server with buf := [] }

def Server.process (server : Server) (data : Data) : Server := (server.handle data).settle

structure Holds (files directory : Directory) (names : List Bytes) (view : Server) : Prop where
  directory_eq : view.directory = copies files directory names
  stdout_eq : view.stdout = names.flatMap (receivedLines files)

/-- The server has written `part` of the next file, and the client has still to read `fd` of it. -/
structure Copying (files directory : Directory) (names : List Bytes) (fileName part fd : Bytes)
    (view : Server) : Prop where
  opened : openFile files fileName = some (part ++ fd)
  phase_eq : view.phase = .receiveFileData
  copyFileName_eq : view.copyFileName = copyName fileName
  total_eq : view.totalCharsReceived = part.length
  directory_eq :
    view.directory = Function.update (copies files directory names) (copyName fileName) (some part)
  stdout_eq : view.stdout = names.flatMap (receivedLines files) ++ [.fileName fileName]

def Agrees (files directory : Directory) (all names : List Bytes) (client : Client) (view : Server) : Prop :=
  match client.phase with
  | .prompt =>
    view.phase = .receiveFileName ∧ Holds files directory names view ∧
      client.stdout = names.flatMap (sentLines files) ∧ all = names ++ accepted files client.lines
  | .sendFileName | .receiveAck =>
    Copying files directory names client.fileName [] client.fd view ∧
      client.stdout = names.flatMap (sentLines files) ∧
      all = names ++ client.fileName :: accepted files client.lines
  | .readFile =>
    (∃ part, Copying files directory names client.fileName part client.fd view ∧ part.length = client.totalCharsSent) ∧
      client.stdout = names.flatMap (sentLines files) ++ [.sending client.fileName] ∧
      all = names ++ client.fileName :: accepted files client.lines
  | .sendFileData =>
    (∃ part, Copying files directory names client.fileName part client.fd view ∧
        part.length = client.totalCharsSent + client.fileData.size.toNat) ∧
      client.stdout = names.flatMap (sentLines files) ++ [.sending client.fileName] ∧
      all = names ++ client.fileName :: accepted files client.lines
  | .sendEof =>
    (view.phase = .receiveFileName ∧ Holds files directory (names ++ [client.fileName]) view ∧
        client.totalCharsSent = fileSize files client.fileName) ∧
      client.stdout = names.flatMap (sentLines files) ++ [.sending client.fileName] ∧
      all = names ++ client.fileName :: accepted files client.lines
  | .closed =>
    (view.phase = .receiveFileName ∨ view.phase = .disconnected) ∧ Holds files directory names view ∧
      client.stdout = names.flatMap (sentLines files) ∧ all = names
  | .failed => False

structure InStep (files directory : Directory) (all names : List Bytes) (packets : List Data) (acks : ℕ)
    (s : State) : Prop where
  up : Carries Data.bytes s.server.got s.up s.client.rest packets
  down : Carries Data.bytes s.client.got s.down s.server.rest (List.replicate acks (.zeroed .ack))
  serverGot_le : s.server.got.length ≤ dataSize
  clientGot_le : s.client.got.length ≤ dataSize
  awaited : Outstanding isFileName s.client.awaits packets acks
  agrees : Agrees files directory all names s.client (packets.foldl Server.process s.server.settle)

variable {files directory : Directory} {all names : List Bytes} {packets : List Data} {acks : ℕ}
  {client : Client} {server view : Server} {data : Data} {name part piece content : Bytes}

section OpenFile

lemma openFile_eq_some (h : openFile files name = some content) :
    files name = some content ∧ name.length < 50 ∧ content.length < 200000 := by
  simp only [openFile] at h
  split at h
  case isFalse => cases h
  case isTrue hvalid =>
    have hlen : name.length < 50 := by
      by_contra hge
      have hlong : name.length ≥ 50 := Nat.le_of_not_lt hge
      simp [isValidFileName, hlong] at hvalid
    cases hfile : files name with
    | none => simp [hfile] at h
    | some content' =>
      simp only [hfile] at h
      split_ifs at h with hsize
      obtain rfl := Option.some.inj h
      exact ⟨rfl, hlen, Nat.lt_of_not_le hsize⟩

lemma fileSize_eq (h : openFile files name = some content) : fileSize files name = content.length := by
  simp only [fileSize, (openFile_eq_some h).1]

end OpenFile

lemma copies_concat (files directory : Directory) (names : List Bytes) (last : Bytes) :
    copies files directory (names ++ [last]) =
      Function.update (copies files directory names) (copyName last) (files last) := by
  simp only [copies, List.foldl_append, List.foldl_cons, List.foldl_nil]

section Process

lemma handle_stopped (h : server.hasClosed) (data : Data) : server.handle data = server := by
  rcases h with h | h <;> simp only [Server.handle, h]

lemma settle_stopped (h : server.hasClosed) : server.settle = { server with buf := [] } := by
  rcases h with h | h <;> simp only [Server.settle, h]

lemma view_stopped (h : server.hasClosed) (packets : List Data) :
    packets.foldl Server.process server.settle = { server with buf := [] } := by
  rw [settle_stopped h]
  induction packets with
  | nil => rfl
  | cons data packets ih =>
    have hstill : Server.hasClosed { server with buf := [] } := h
    rw [List.foldl_cons, Server.process, handle_stopped hstill, settle_stopped hstill]
    exact ih

lemma rest_writing (h : client.writes) : client.rest = client.buf := by
  rcases h with h | h | h <;> simp only [Client.rest, h]

lemma got_writing (h : client.writes) : client.got = [] := by
  rcases h with h | h | h <;> simp only [Client.got, h]

lemma got_reading (h : server.reads) : server.got = server.buf := by
  rcases h with h | h <;> simp only [Server.got, h]

lemma rest_reading (h : server.reads) : server.rest = [] := by
  rcases h with h | h <;> simp only [Server.rest, h]

lemma settle_reading (h : server.reads) :
    server.settle = { server with buf := [] } := by
  rcases h with h | h <;> simp only [Server.settle, h]

lemma settle_handle (h : server.reads) (data : Data) :
    (server.handle data).settle = server.settle.process data := by
  rw [settle_reading h]
  rcases h with h | h
  · simp only [Server.process, Server.handle, h, Server.handleFileName]
    split_ifs <;> rfl
  · simp only [Server.process, Server.handle, h, Server.handleFileData]
    split_ifs <;> rfl

lemma process_fileName (hphase : view.phase = .receiveFileName) (hnul : (0 : UInt8) ∉ name)
    (hlen : name.length < 50) :
    view.process (fileNameData name) =
      { view with
        phase := .receiveFileData, buf := [], copyFileName := copyName name, totalCharsReceived := 0
        directory := Function.update view.directory (copyName name) (some [])
        stdout := view.stdout ++ [.fileName name] } := by
  have hmax : maxLine = 80 := rfl
  have hname : cstr ((fileNameData name).data.set (maxLine - 1) 0) = name :=
    cstr_fileNameData hnul (by omega)
  have hcopy : (name ++ ascii "_copy").take (maxLine + 5) = copyName name := by
    refine List.take_of_length_le ?_
    have hsuffix : (ascii "_copy").length = 5 := rfl
    rw [List.length_append, hsuffix]
    omega
  have hoperation : (fileNameData name).operation = Operation.sendFileName.value := rfl
  simp only [Server.process, Server.handle, hphase, Server.handleFileName, hname, hcopy, hoperation,
    ne_eq, not_true_eq_false, if_false]
  rfl

lemma process_fileData (hphase : view.phase = .receiveFileData) (hpiece : piece.length ≤ maxLine)
    (htotal : view.totalCharsReceived + piece.length < 200000) :
    view.process (data.fill piece hpiece) =
      { view with
        buf := [], size := piece.length, directory := view.append piece
        totalCharsReceived := view.totalCharsReceived + piece.length } := by
  have hsize : (data.fill piece hpiece).size.toNat = piece.length := size_fill hpiece
  have htake : (data.fill piece hpiece).data.take piece.length = piece := take_fill hpiece
  have hoperation : (data.fill piece hpiece).operation = Operation.sendFileData.value := rfl
  have hne : Operation.sendFileData.value ≠ Operation.endOfFile.value := by decide
  simp only [Server.process, Server.handle, hphase, Server.handleFileData, hoperation, hne, hsize, htake,
    ne_eq, not_true_eq_false, false_or, if_false, gt_iff_lt, not_lt.mpr hpiece, ge_iff_le,
    not_le.mpr htotal]
  simp only [Server.settle, Server.written, Server.append]

lemma process_endOfFile (hphase : view.phase = .receiveFileData) :
    view.process (.zeroed .endOfFile) = view.closeFile .receiveFileName := by
  have hoperation : (Data.zeroed .endOfFile).operation = Operation.endOfFile.value := rfl
  simp only [Server.process, Server.handle, hphase, Server.handleFileData, hoperation, if_true]
  rfl

end Process

end SystemsLab.FileTransfer
