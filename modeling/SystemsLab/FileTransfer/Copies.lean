import SystemsLab.FileTransfer.InStep
import Mathlib.Algebra.BigOperators.Group.List.Basic
import Mathlib.Data.List.Induction

namespace SystemsLab.FileTransfer

open CLib Streams

structure Copied (files directory : Directory) (names : List Bytes) (s : State) : Prop where
  copy_eq : ∀ name ∈ names, ∃ content, files name = some content ∧
    s.server.directory (copyName name) = some content
  other_eq : ∀ path, (∀ name ∈ names, path ≠ copyName name) →
    s.server.directory path = directory path
  client_stdout : s.client.stdout = names.flatMap (sentLines files)
  server_stdout : s.server.stdout = names.flatMap (receivedLines files)

variable {files directory : Directory} {all names : List Bytes} {packets : List Data} {acks capacity k : ℕ}
  {client : Client} {server : Server} {data : Data} {lines : List CString} {s s' : State}

section Work

def lineWork (files : Directory) (line : CString) : ℕ := 1130 + 600 * fileSize files line.val

def Client.work (files : Directory) (client : Client) : ℕ :=
  let rest := (client.lines.map (lineWork files)).sum
  match client.phase with
  | .prompt => rest + 1
  | .sendFileName => rest + 600 * client.fd.length + 6 * client.buf.length + 602
  | .receiveAck => rest + 600 * client.fd.length + client.buf.length + 601
  | .readFile => rest + 600 * client.fd.length + 600
  | .sendFileData => rest + 600 * client.fd.length + 6 * client.buf.length + 601
  | .sendEof => rest + 6 * client.buf.length + 2
  | .closed | .failed => 0

def Server.work (server : Server) : ℕ :=
  match server.phase with
  | .receiveFileName | .receiveFileData => 4 * server.buf.length + 1
  | .sendAck => 3 * server.buf.length + 2
  | .writeFile => server.buf.length + 2
  | .disconnected | .failed => 0

def work (files : Directory) (s : State) : ℕ :=
  s.client.work files + 5 * s.up.length + s.server.work + 2 * s.down.length

lemma dataSize_eq : dataSize = 88 := rfl

lemma readLine_work (hphase : client.phase = .prompt) :
    (client.readLine files).work files < client.work files := by
  have hwork : client.work files = (client.lines.map (lineWork files)).sum + 1 := by
    simp only [Client.work, hphase]
  rw [hwork, Client.readLine]
  cases hlines : client.lines with
  | nil => exact Nat.succ_pos _
  | cons line lines =>
    simp only [List.map_cons, List.sum_cons, lineWork]
    split_ifs with hquit
    · exact Nat.succ_pos _
    · cases hopen : openFile files line.val with
      | none =>
        simp only [Client.work, hphase]
        omega
      | some content =>
        have hlen := length_bytes (fileNameData line.val)
        simp only [Client.work, hlen, dataSize_eq, fileSize_eq hopen]
        omega

lemma handleAck_work (hphase : client.phase = .receiveAck) (data : Data) :
    (client.handleAck data).work files < client.work files := by
  have hwork : client.work files = (client.lines.map (lineWork files)).sum +
      600 * client.fd.length + client.buf.length + 601 := by
    simp only [Client.work, hphase]
  rw [hwork, Client.handleAck]
  split_ifs
  · exact Nat.succ_pos _
  · simp only [Client.work]
    omega

lemma readPiece_work {client' : Client} (hphase : client.phase = .readFile)
    (hs : client.readPiece k = some client') : client'.work files < client.work files := by
  have hwork : client.work files =
      (client.lines.map (lineWork files)).sum + 600 * client.fd.length + 600 := by
    simp only [Client.work, hphase]
  rw [hwork]
  simp only [Client.readPiece] at hs
  split at hs
  case isTrue =>
    obtain rfl := Option.some.inj hs
    simp only [Client.work, length_bytes, dataSize_eq]
    omega
  case isFalse =>
    split at hs
    case isFalse => cases hs
    case isTrue hk =>
      obtain rfl := Option.some.inj hs
      simp only [Client.work, length_bytes, dataSize_eq, List.length_drop]
      omega

lemma clientWrites_work (hwrites : s.client.writes) (hs : s.clientWrites capacity k = some s') :
    work files s' < work files s := by
  simp only [State.clientWrites] at hs
  split at hs
  case isTrue hbuf =>
    obtain rfl := Option.some.inj hs
    rcases hwrites with hphase | hphase | hphase <;>
      · simp only [work, Client.written, Client.work, hphase, hbuf, List.length_nil]
        omega
  case isFalse =>
    split at hs
    case isTrue =>
      obtain rfl := Option.some.inj hs
      rcases hwrites with hphase | hphase | hphase <;>
        · simp only [work, Client.work, hphase]
          omega
    case isFalse =>
      obtain ⟨⟨buf', up'⟩, htransfer, rfl⟩ := Option.map_eq_some_iff.mp hs
      obtain ⟨chunk, hbuf', rfl, hpos, -⟩ := transfer_eq_some htransfer
      rcases hwrites with hphase | hphase | hphase <;>
        · simp only [work, Client.work, hphase, hbuf', List.length_append]
          omega

lemma clientReads_work (hphase : s.client.phase = .receiveAck) (hs : s.clientReads k = some s') :
    work files s' < work files s := by
  simp only [State.clientReads] at hs
  split at hs
  case isTrue hlen =>
    obtain rfl := Option.some.inj hs
    have hclient : (s.client.handleAck (deserializeData (.ofMemory s.client.buf hlen))).work files <
        s.client.work files := handleAck_work hphase _
    simp only [work]
    omega
  case isFalse =>
    split at hs
    case isTrue =>
      obtain rfl := Option.some.inj hs
      simp only [work, Client.work, hphase]
      omega
    case isFalse =>
      obtain ⟨⟨down', buf'⟩, htransfer, rfl⟩ := Option.map_eq_some_iff.mp hs
      obtain ⟨chunk, hdown, rfl, hpos, -⟩ := transfer_eq_some htransfer
      simp only [work, Client.work, hphase, hdown, List.length_append]
      omega

lemma clientStep_work (hs : clientStep files capacity k s = some s') : work files s' < work files s := by
  cases hphase : s.client.phase with
  | prompt =>
    simp only [clientStep, hphase] at hs
    obtain rfl := Option.some.inj hs
    have hclient : (s.client.readLine files).work files < s.client.work files := readLine_work hphase
    simp only [work]
    omega
  | receiveAck =>
    simp only [clientStep, hphase] at hs
    exact clientReads_work hphase hs
  | readFile =>
    simp only [clientStep, hphase] at hs
    obtain ⟨client, hclient, rfl⟩ := Option.map_eq_some_iff.mp hs
    have hwork : client.work files < s.client.work files := readPiece_work hphase hclient
    simp only [work]
    omega
  | sendFileName =>
    simp only [clientStep, hphase] at hs
    exact clientWrites_work (Or.inl hphase) hs
  | sendFileData =>
    simp only [clientStep, hphase] at hs
    exact clientWrites_work (Or.inr (Or.inl hphase)) hs
  | sendEof =>
    simp only [clientStep, hphase] at hs
    exact clientWrites_work (Or.inr (Or.inr hphase)) hs
  | closed => simp only [clientStep, hphase, reduceCtorEq] at hs
  | failed => simp only [clientStep, hphase, reduceCtorEq] at hs

lemma handle_work (hreads : server.reads) (hlen : server.buf.length = dataSize) (data : Data) :
    (server.handle data).work < server.work := by
  have hwork : server.work = 353 := by
    rcases hreads with hphase | hphase <;> simp only [Server.work, hphase, hlen, dataSize_eq]
  rw [hwork]
  rcases hreads with hphase | hphase
  · simp only [Server.handle, hphase, Server.handleFileName]
    split_ifs
    · simp only [Server.work]
      omega
    · simp only [Server.work, length_bytes, dataSize_eq]
      omega
  · simp only [Server.handle, hphase, Server.handleFileData, Server.closeFile]
    split_ifs
    · simp only [Server.work, List.length_nil]
      omega
    · simp only [Server.work]
      omega
    · simp only [Server.work]
      omega
    · have hle : (data.data.take data.size.toNat).length ≤ 80 := by
        have hdata : data.data.length = 80 := data.length_data
        rw [List.length_take]
        omega
      simp only [Server.work]
      omega

lemma serverReads_work (hreads : s.server.reads) (hs : s.serverReads k = some s') :
    work files s' < work files s := by
  simp only [State.serverReads] at hs
  split at hs
  case isTrue hlen =>
    obtain rfl := Option.some.inj hs
    have hserver := handle_work hreads hlen (deserializeData (.ofMemory s.server.buf hlen))
    simp only [work]
    omega
  case isFalse =>
    split at hs
    case isTrue =>
      obtain rfl := Option.some.inj hs
      have hserver : s.server.handleEnd.work < s.server.work := by
        rcases hreads with hphase | hphase
        · simp only [Server.handleEnd, Server.work, hphase]
          split_ifs <;> exact Nat.succ_pos _
        · simp only [Server.handleEnd, Server.closeFile, Server.work, hphase]
          omega
      simp only [work]
      omega
    case isFalse =>
      obtain ⟨⟨up', buf'⟩, htransfer, rfl⟩ := Option.map_eq_some_iff.mp hs
      obtain ⟨chunk, hup, rfl, hpos, -⟩ := transfer_eq_some htransfer
      rcases hreads with hphase | hphase <;>
        · simp only [work, Server.work, hphase, hup, List.length_append]
          omega

lemma serverWrites_work (hphase : s.server.phase = .sendAck) (hs : s.serverWrites capacity k = some s') :
    work files s' < work files s := by
  simp only [State.serverWrites] at hs
  split at hs
  case isTrue hbuf =>
    obtain rfl := Option.some.inj hs
    simp only [work, Server.written, Server.work, hphase, hbuf, List.length_nil]
    omega
  case isFalse =>
    split at hs
    case isTrue =>
      obtain rfl := Option.some.inj hs
      simp only [work, Server.work, hphase]
      omega
    case isFalse =>
      obtain ⟨⟨buf', down'⟩, htransfer, rfl⟩ := Option.map_eq_some_iff.mp hs
      obtain ⟨chunk, hbuf', rfl, hpos, -⟩ := transfer_eq_some htransfer
      simp only [work, Server.work, hphase, hbuf', List.length_append]
      omega

lemma serverWritesFile_work (hphase : s.server.phase = .writeFile)
    (hs : s.serverWritesFile k = some s') : work files s' < work files s := by
  simp only [State.serverWritesFile] at hs
  split at hs
  case isTrue hbuf =>
    obtain rfl := Option.some.inj hs
    simp only [work, Server.written, Server.work, hphase, hbuf, List.length_nil]
    omega
  case isFalse =>
    obtain ⟨⟨buf', bytes⟩, htransfer, rfl⟩ := Option.map_eq_some_iff.mp hs
    obtain ⟨chunk, hbuf', -, hpos, -⟩ := transfer_eq_some htransfer
    simp only [work, Server.work, hphase, hbuf', List.length_append]
    omega

lemma serverStep_work (hs : serverStep capacity k s = some s') : work files s' < work files s := by
  cases hphase : s.server.phase with
  | receiveFileName =>
    simp only [serverStep, hphase] at hs
    exact serverReads_work (Or.inl hphase) hs
  | receiveFileData =>
    simp only [serverStep, hphase] at hs
    exact serverReads_work (Or.inr hphase) hs
  | sendAck =>
    simp only [serverStep, hphase] at hs
    exact serverWrites_work hphase hs
  | writeFile =>
    simp only [serverStep, hphase] at hs
    exact serverWritesFile_work hphase hs
  | disconnected => simp only [serverStep, hphase, reduceCtorEq] at hs
  | failed => simp only [serverStep, hphase, reduceCtorEq] at hs

lemma run_work {actions : List Action} (h : run files capacity s actions = some s') :
    actions.countP (· ≠ .interrupted) + work files s' ≤ work files s := by
  induction actions generalizing s with
  | nil =>
    obtain rfl := Option.some.inj h
    simp
  | cons action actions ih =>
    obtain ⟨next, hs, hrest⟩ := Option.bind_eq_some_iff.mp h
    have hle := ih hrest
    cases action with
    | client k =>
      have hlt := clientStep_work hs
      rw [List.countP_cons_of_pos (by simp)]
      omega
    | server k =>
      have hlt : work files next < work files s := serverStep_work hs
      rw [List.countP_cons_of_pos (by simp)]
      omega
    | interrupted =>
      obtain rfl := Option.some.inj hs
      rw [List.countP_cons_of_neg (by simp)]
      exact hle

end Work

section Waiting

namespace InStep

lemma server_waits (h : InStep files directory all names packets acks s)
    (hwaits : ∀ k, serverStep capacity k s = none) :
    s.server.hasClosed ∨
      s.server.reads ∧ s.server.buf.length < dataSize ∧ s.up = [] ∧ ¬ s.client.hasClosed ∨
      s.server.phase = .sendAck ∧ s.server.buf ≠ [] ∧ capacity ≤ s.down.length := by
  have hreading : s.server.reads → s.serverReads 1 = none →
      s.server.buf.length < dataSize ∧ s.up = [] ∧ ¬ s.client.hasClosed := by
    intro hreads hnone
    have hle := h.serverGot_le
    rw [got_reading hreads] at hle
    simp only [State.serverReads] at hnone
    split at hnone
    case isTrue => cases hnone
    case isFalse hlen =>
      have hlt := lt_of_le_of_ne hle hlen
      have hup : s.up = [] := by
        by_contra hup
        simp only [hup, false_and, if_false, Option.map_eq_none_iff] at hnone
        obtain ⟨r, hr⟩ := exists_transfer (Nat.sub_pos_of_lt hlt) hup s.server.buf
        cases hr.symm.trans hnone
      refine ⟨hlt, hup, fun hclosed => ?_⟩
      simp only [hup, hclosed, and_self, if_true, reduceCtorEq] at hnone
  have hnone := hwaits 1
  cases hphase : s.server.phase with
  | receiveFileName =>
    simp only [serverStep, hphase] at hnone
    exact Or.inr (Or.inl ⟨Or.inl hphase, hreading (Or.inl hphase) hnone⟩)
  | receiveFileData =>
    simp only [serverStep, hphase] at hnone
    exact Or.inr (Or.inl ⟨Or.inr hphase, hreading (Or.inr hphase) hnone⟩)
  | sendAck =>
    simp only [serverStep, hphase, State.serverWrites] at hnone
    split_ifs at hnone with hbuf
    refine Or.inr (Or.inr ⟨rfl, hbuf, ?_⟩)
    by_contra hroom
    obtain ⟨r, hr⟩ := exists_transfer (Nat.sub_pos_of_lt (Nat.lt_of_not_le hroom)) hbuf s.down
    rw [Option.map_eq_none_iff] at hnone
    cases hr.symm.trans hnone
  | writeFile =>
    simp only [serverStep, hphase, State.serverWritesFile] at hnone
    split_ifs at hnone with hbuf
    obtain ⟨r, hr⟩ := exists_transfer (List.length_pos_iff.mpr hbuf) hbuf []
    rw [Option.map_eq_none_iff] at hnone
    cases hr.symm.trans hnone
  | disconnected => exact Or.inl (Or.inl hphase)
  | failed => exact Or.inl (Or.inr hphase)

lemma client_waits (h : InStep files directory all names packets acks s)
    (hwaits : ∀ k, clientStep files capacity k s = none) :
    s.client.phase = .closed ∨
      s.client.phase = .receiveAck ∧ s.client.buf.length < dataSize ∧ s.down = [] ∨
      s.client.writes ∧ capacity ≤ s.up.length := by
  have hwriting : s.clientWrites capacity 1 = none → capacity ≤ s.up.length := by
    intro hnone
    simp only [State.clientWrites] at hnone
    split_ifs at hnone with hbuf
    by_contra hroom
    obtain ⟨r, hr⟩ := exists_transfer (Nat.sub_pos_of_lt (Nat.lt_of_not_le hroom)) hbuf s.up
    rw [Option.map_eq_none_iff] at hnone
    cases hr.symm.trans hnone
  have hnone := hwaits 1
  cases hphase : s.client.phase with
  | prompt => simp only [clientStep, hphase, reduceCtorEq] at hnone
  | sendFileName =>
    simp only [clientStep, hphase] at hnone
    exact Or.inr (Or.inr ⟨Or.inl hphase, hwriting hnone⟩)
  | sendFileData =>
    simp only [clientStep, hphase] at hnone
    exact Or.inr (Or.inr ⟨Or.inr (Or.inl hphase), hwriting hnone⟩)
  | sendEof =>
    simp only [clientStep, hphase] at hnone
    exact Or.inr (Or.inr ⟨Or.inr (Or.inr hphase), hwriting hnone⟩)
  | receiveAck =>
    have hle := h.clientGot_le
    simp only [Client.got, hphase] at hle
    simp only [clientStep, hphase, State.clientReads] at hnone
    split_ifs at hnone with hlen
    have hlt := lt_of_le_of_ne hle hlen
    refine Or.inr (Or.inl ⟨rfl, hlt, ?_⟩)
    by_contra hdown
    obtain ⟨r, hr⟩ := exists_transfer (Nat.sub_pos_of_lt hlt) hdown s.client.buf
    rw [Option.map_eq_none_iff] at hnone
    cases hr.symm.trans hnone
  | readFile =>
    simp only [clientStep, hphase, Client.readPiece] at hnone
    split_ifs at hnone with hfd hk
    · cases hnone
    · cases hnone
    · have hlen := List.length_pos_iff.mpr hfd
      exact (hk ⟨Nat.one_pos, by decide, hlen⟩).elim
  | closed => exact Or.inl rfl
  | failed => exact (h.agrees.phases.1 hphase).elim

lemma nothing_up (h : InStep files directory all names packets acks s) (hreads : s.server.reads)
    (hlt : s.server.buf.length < dataSize) (hup : s.up = []) (hrest : s.client.rest = []) :
    packets = [] ∧ s.server.buf = [] := by
  have hcarries := h.up
  rw [got_reading hreads, hup, hrest] at hcarries
  exact hcarries.eq_nil length_bytes hlt

lemma acks_pos (h : InStep files directory all names packets acks s) (hphase : s.server.phase = .sendAck)
    (hbuf : s.server.buf ≠ []) : 0 < acks := by
  by_contra hnone
  obtain rfl : acks = 0 := by omega
  have hcarries := h.down
  simp only [Server.rest, hphase] at hcarries
  exact hbuf hcarries.of_nil.2.2

lemma goes_on (h : InStep files directory all names packets acks s) (hcapacity : 0 < capacity)
    (hclient : ∀ k, clientStep files capacity k s = none)
    (hserver : ∀ k, serverStep capacity k s = none) :
    s.client.phase = .closed ∧ s.server.phase = .disconnected := by
  rcases h.server_waits hserver with hclosed | ⟨hreads, hlt, hup, hopen⟩ | ⟨hphase, hbuf, hfull⟩
  · exact ⟨h.closed_of_server hclosed, hclosed.resolve_right h.server_ne_failed⟩
  · rcases h.client_waits hclient with hclosed | ⟨hphase, hgot, hdown⟩ | ⟨-, hfull⟩
    · exact (hopen (Or.inl hclosed)).elim
    · -- neither the file name nor its ack is on its way
      have hrest : s.client.rest = [] := by simp only [Client.rest, hphase]
      obtain ⟨rfl, -⟩ := h.nothing_up hreads hlt hup hrest
      have hcarries := h.down
      have hawaited := h.awaited
      simp only [Client.got, hphase, hdown, rest_reading hreads] at hcarries
      obtain ⟨hacks, -⟩ := hcarries.eq_nil length_bytes hgot
      obtain rfl : acks = 0 := (List.replicate_eq_nil_iff _).mp hacks
      simp only [Client.awaits, hphase] at hawaited
      cases hawaited.waiting_eq
    · rw [hup, List.length_nil] at hfull
      omega
  · obtain ⟨n, rfl⟩ := Nat.exists_eq_add_one.mpr (h.acks_pos hphase hbuf)
    have hdown : s.down ≠ [] := by
      intro hnil
      rw [hnil, List.length_nil] at hfull
      omega
    have hawaited := h.awaited
    rcases h.client_waits hclient with hclosed | ⟨-, -, hnil⟩ | ⟨hwrites, hfull'⟩
    · simp only [Client.awaits, hclosed] at hawaited
      cases hawaited.answers_eq
    · exact (hdown hnil).elim
    · -- nothing follows the file name before its ack
      obtain ⟨rfl, -⟩ := hawaited.settle
      rw [h.up.of_nil.2.1, List.length_nil] at hfull'
      omega

lemma ready (h : InStep files directory all names packets acks s) (hphase : s.client.phase = .prompt)
    (hserver : ∀ k, serverStep capacity k s = none) :
    packets = [] ∧ s.server.phase = .receiveFileName ∧ s.server.buf = [] := by
  rcases h.server_waits hserver with hclosed | ⟨hreads, hlt, hup, -⟩ | ⟨hsends, hbuf, -⟩
  · cases hphase.symm.trans (h.closed_of_server hclosed)
  · have hrest : s.client.rest = [] := by simp only [Client.rest, hphase]
    obtain ⟨rfl, hbuf⟩ := h.nothing_up hreads hlt hup hrest
    have hagrees := h.agrees
    rw [List.foldl_nil, settle_reading hreads] at hagrees
    simp only [Agrees, hphase] at hagrees
    exact ⟨rfl, hagrees.1, hbuf⟩
  · have hacks := h.acks_pos hsends hbuf
    have hawaited := h.awaited
    simp only [Client.awaits, hphase] at hawaited
    have hzero := hawaited.answers_eq
    omega

end InStep

end Waiting

section Copied

lemma mem_accepted {name : Bytes} (h : name ∈ accepted files lines) :
    ∃ content, openFile files name = some content := by
  induction lines with
  | nil => cases h
  | cons line lines ih =>
    simp only [accepted] at h
    split_ifs at h with hquit
    · cases h
    · cases hopen : openFile files line.val with
      | none =>
        rw [hopen] at h
        exact ih h
      | some content =>
        rw [hopen] at h
        rcases List.mem_cons.mp h with rfl | h
        · exact ⟨content, hopen⟩
        · exact ih h

lemma copies_copyName {name : Bytes} (h : name ∈ names) :
    copies files directory names (copyName name) = files name := by
  induction names using List.reverseRecOn with
  | nil => cases h
  | append_singleton names last ih =>
    rw [copies_concat]
    by_cases heq : name = last
    · rw [heq, Function.update_self]
    · have hne : copyName name ≠ copyName last := fun hcopy => heq (List.append_cancel_right hcopy)
      rw [Function.update_of_ne hne]
      apply ih
      rcases List.mem_append.mp h with h | h
      · exact h
      · exact (heq (List.mem_singleton.mp h)).elim

lemma copies_of_ne {path : Bytes} (h : ∀ name ∈ names, path ≠ copyName name) :
    copies files directory names path = directory path := by
  induction names using List.reverseRecOn with
  | nil => rfl
  | append_singleton names last ih =>
    rw [copies_concat]
    rw [Function.update_of_ne (h last (by simp))]
    exact ih fun name hname => h name (List.mem_append_left _ hname)

lemma Holds.copied (h : Holds files directory names s.server)
    (hnames : ∀ name ∈ names, name ∈ accepted files lines)
    (hstdout : s.client.stdout = names.flatMap (sentLines files)) :
    Copied files directory names s where
  copy_eq name hname := by
    obtain ⟨content, hopen⟩ := mem_accepted (hnames name hname)
    have hfile := (openFile_eq_some hopen).1
    refine ⟨content, hfile, ?_⟩
    rw [h.directory_eq, copies_copyName hname, hfile]
  other_eq path hpath := by
    rw [h.directory_eq, copies_of_ne hpath]
  client_stdout := hstdout
  server_stdout := h.stdout_eq

end Copied

theorem files_copied (files directory : Directory) (lines : List CString) (capacity : ℕ)
    (hcapacity : 0 < capacity) :
    ∃ bound, ∀ actions s, run files capacity (start lines directory) actions = some s →
      actions.countP (· ≠ .interrupted) ≤ bound ∧
      s.client.phase ≠ .failed ∧ s.server.phase ≠ .failed ∧
      ((∃ action, action ≠ .interrupted ∧ (step files capacity s action).isSome) ∨
        s.client.phase = .closed ∧ s.server.phase = .disconnected ∧
          Copied files directory (accepted files lines) s) ∧
      (s.client.phase = .prompt → (∀ k, serverStep capacity k s = none) →
        s.server.phase = .receiveFileName ∧ s.server.buf = [] ∧
          ∃ names, accepted files lines = names ++ accepted files s.client.lines ∧
            Copied files directory names s) := by
  refine ⟨work files (start lines directory), fun actions s hrun => ?_⟩
  have hstart : InStep files directory (accepted files lines) [] [] 0 (start lines directory) :=
    InStep.start lines
  obtain ⟨names, packets, acks, h⟩ := hstart.run hrun
  have hwork := run_work hrun
  refine ⟨by omega, h.agrees.phases.1, h.server_ne_failed, ?_, fun hprompt hserver => ?_⟩
  · by_cases hgoes : ∃ action, action ≠ .interrupted ∧ (step files capacity s action).isSome
    · exact Or.inl hgoes
    · have hnone : ∀ action, action ≠ .interrupted → step files capacity s action = none := by
        intro action haction
        by_contra hsome
        exact hgoes ⟨action, haction, Option.isSome_iff_ne_none.mpr hsome⟩
      obtain ⟨hclient, hserver⟩ := h.goes_on hcapacity (fun k => hnone (.client k) nofun)
        fun k => hnone (.server k) nofun
      refine Or.inr ⟨hclient, hserver, ?_⟩
      have hagrees := h.agrees
      rw [view_stopped (Or.inl hserver)] at hagrees
      simp only [Agrees, hclient] at hagrees
      obtain ⟨-, hholds, hstdout, hall⟩ := hagrees
      have hserver' : Holds files directory names s.server := ⟨hholds.directory_eq, hholds.stdout_eq⟩
      rw [hall]
      have hmem : ∀ name ∈ names, name ∈ accepted files lines := by
        intro name hname
        rwa [hall]
      exact hserver'.copied hmem hstdout
  · obtain ⟨rfl, hphase, hbuf⟩ := h.ready hprompt hserver
    have hagrees := h.agrees
    rw [List.foldl_nil, settle_reading (Or.inl hphase)] at hagrees
    simp only [Agrees, hprompt] at hagrees
    obtain ⟨-, hholds, hstdout, hall⟩ := hagrees
    have hserver' : Holds files directory names s.server := ⟨hholds.directory_eq, hholds.stdout_eq⟩
    have hmem : ∀ name ∈ names, name ∈ accepted files lines := by
      intro name hname
      rw [hall]
      exact List.mem_append_left _ hname
    exact ⟨hphase, hbuf, names, hall, hserver'.copied hmem hstdout⟩

def oneFile : Directory := fun name => if name = ascii "a" then some (ascii "hi") else none

def oneTransfer : List Action :=
  [.client 0, .client 88, .client 0, .server 1, .interrupted, .server 87, .server 0, .server 88, .server 0,
    .client 88, .client 0, .client 1, .client 88, .client 0, .client 1, .server 88, .server 0, .server 1,
    .server 0, .client 88, .client 0, .client 0, .server 88, .server 0, .server 1, .server 0, .client 88,
    .client 0, .server 88, .server 0, .client 0, .server 0]

theorem files_copied_one :
    ∃ s, run oneFile 100 (start [⟨ascii "a", by decide⟩] fun _ => none) oneTransfer = some s ∧
      s.server.directory (copyName (ascii "a")) = some (ascii "hi") ∧
      s.client.stdout = [.sending (ascii "a"), .sent 2] ∧
      s.server.stdout = [.fileName (ascii "a"), .received 2] := by
  have hends : (run oneFile 100 (start [⟨ascii "a", by decide⟩] fun _ => none) oneTransfer).map
      (fun s => (s.client.phase, s.server.phase)) = some (.closed, .disconnected) := by decide +kernel
  obtain ⟨s, hrun, hphases⟩ := Option.map_eq_some_iff.mp hends
  obtain ⟨hclient, hserver⟩ := Prod.mk.inj hphases
  obtain ⟨bound, h⟩ := files_copied oneFile (fun _ => none) [⟨ascii "a", by decide⟩] 100 (by decide)
  obtain ⟨-, -, -, hcopied, -⟩ := h oneTransfer s hrun
  have hnone : ∀ action, action ≠ .interrupted → step oneFile 100 s action = none := by
    intro action haction
    cases action with
    | client k => simp only [step, clientStep, hclient]
    | server k => simp only [step, serverStep, hserver]
    | interrupted => exact (haction rfl).elim
  rcases hcopied with ⟨action, haction, hsome⟩ | ⟨-, -, hcopied⟩
  · rw [hnone action haction] at hsome
    cases hsome
  · refine ⟨s, hrun, ?_, ?_, ?_⟩
    · obtain ⟨content, hfile, hcopy⟩ := hcopied.copy_eq (ascii "a") (by decide)
      rw [hcopy, ← hfile]
      decide
    · rw [hcopied.client_stdout]
      decide
    · rw [hcopied.server_stdout]
      decide

end SystemsLab.FileTransfer
