import SystemsLab.FileTransfer.Views

namespace SystemsLab.FileTransfer

open CLib Streams

variable {files directory : Directory} {all names names' : List Bytes} {packets : List Data} {acks capacity k : ℕ}
  {client : Client} {server view : Server} {data : Data} {name part piece content : Bytes} {s s' : State}

section ServerSteps

lemma Agrees.phases (h : Agrees files directory all names client view) :
    client.phase ≠ .failed ∧ (view.phase = .receiveFileName ∨ view.phase = .receiveFileData ∨
      client.phase = .closed ∧ view.phase = .disconnected) := by
  cases hphase : client.phase with
  | prompt =>
    simp only [Agrees, hphase] at h
    exact ⟨nofun, Or.inl h.1⟩
  | sendFileName =>
    simp only [Agrees, hphase] at h
    exact ⟨nofun, Or.inr (Or.inl h.1.phase_eq)⟩
  | receiveAck =>
    simp only [Agrees, hphase] at h
    exact ⟨nofun, Or.inr (Or.inl h.1.phase_eq)⟩
  | readFile =>
    simp only [Agrees, hphase] at h
    obtain ⟨⟨part, hcopying, -⟩, -⟩ := h
    exact ⟨nofun, Or.inr (Or.inl hcopying.phase_eq)⟩
  | sendFileData =>
    simp only [Agrees, hphase] at h
    obtain ⟨⟨part, hcopying, -⟩, -⟩ := h
    exact ⟨nofun, Or.inr (Or.inl hcopying.phase_eq)⟩
  | sendEof =>
    simp only [Agrees, hphase] at h
    exact ⟨nofun, Or.inl h.1.1⟩
  | closed =>
    simp only [Agrees, hphase] at h
    rcases h.1 with h | h
    · exact ⟨nofun, Or.inl h⟩
    · exact ⟨nofun, Or.inr (Or.inr ⟨rfl, h⟩)⟩
  | failed => simp only [Agrees, hphase] at h

lemma handle_fileName (hphase : server.phase = .receiveFileName)
    (hne : (server.handle data).phase ≠ .failed) :
    isFileName data = true ∧ (server.handle data).phase = .sendAck ∧
      (server.handle data).buf = (Data.zeroed .ack).bytes := by
  simp only [Server.handle, hphase, Server.handleFileName] at hne ⊢
  split_ifs at hne ⊢ with hoperation
  · exact (hne rfl).elim
  · exact ⟨decide_eq_true (not_not.mp hoperation), rfl, rfl⟩

lemma handle_fileData (hphase : server.phase = .receiveFileData)
    (hne : (server.handle data).phase ≠ .failed) :
    isFileName data = false ∧ (server.handle data).rest = [] ∧ (server.handle data).got = [] := by
  simp only [Server.handle, hphase, Server.handleFileData] at hne ⊢
  split_ifs at hne ⊢ with heof hinvalid hlarge
  · refine ⟨?_, rfl, rfl⟩
    simp only [isFileName, heof]
    decide
  · exact (hne rfl).elim
  · exact (hne rfl).elim
  · have hoperation := not_not.mp (not_or.mp hinvalid).1
    refine ⟨?_, rfl, rfl⟩
    simp only [isFileName, hoperation]
    decide

namespace InStep

lemma server_ne_failed (h : InStep files directory all names packets acks s) :
    s.server.phase ≠ .failed := by
  intro hfailed
  have hstopped : s.server.hasClosed := Or.inr hfailed
  have hview := h.agrees.phases.2
  rw [view_stopped hstopped] at hview
  rcases hview with hview | hview | ⟨-, hview⟩ <;> cases hfailed.symm.trans hview

lemma closed_of_server (h : InStep files directory all names packets acks s)
    (hclosed : s.server.hasClosed) : s.client.phase = .closed := by
  have hdisconnected : s.server.phase = .disconnected := hclosed.resolve_right h.server_ne_failed
  have hview := h.agrees.phases.2
  rw [view_stopped hclosed] at hview
  rcases hview with hview | hview | ⟨hclient, -⟩
  · cases hdisconnected.symm.trans hview
  · cases hdisconnected.symm.trans hview
  · exact hclient

lemma closed_of_client (h : InStep files directory all names packets acks s)
    (hclosed : s.client.hasClosed) : s.client.phase = .closed :=
  hclosed.resolve_right h.agrees.phases.1

lemma handle (h : InStep files directory all names packets acks s) (hreads : s.server.reads)
    (hlen : s.server.buf.length = dataSize) :
    ∃ packets' acks', InStep files directory all names packets' acks'
      { s with server := s.server.handle (deserializeData (.ofMemory s.server.buf hlen)) } := by
  obtain ⟨up, down, -, hclient, hawaited, hagrees⟩ := h
  rw [got_reading hreads] at up
  rw [rest_reading hreads] at down
  obtain ⟨data, packets, rfl, hbytes, hup⟩ := up.receive length_bytes (by decide) hlen
  rw [deserialize_bytes hbytes hlen]
  rw [List.foldl_cons, ← settle_handle hreads] at hagrees
  have hne : (s.server.handle data).phase ≠ .failed := by
    intro hfailed
    have hview := hagrees.phases.2
    rw [view_stopped (Or.inr hfailed), hfailed] at hview
    rcases hview with hview | hview | ⟨-, hview⟩ <;> cases hview
  rcases hreads with hphase | hphase
  · obtain ⟨hname, hsends, hack⟩ := handle_fileName hphase hne
    have hgot : (s.server.handle data).got = [] := by simp only [Server.got, hsends]
    have hrest : (s.server.handle data).rest = (Data.zeroed .ack).bytes := by
      simp only [Server.rest, hsends, hack]
    refine ⟨packets, acks + 1, ?_, ?_, ?_, hclient, ?_, hagrees⟩
    · rw [hgot]
      exact hup
    · rw [hrest, List.replicate_succ']
      exact down.send _
    · rw [hgot]
      exact Nat.zero_le _
    · exact hawaited.answer hname
  · obtain ⟨hname, hrest, hgot⟩ := handle_fileData hphase hne
    refine ⟨packets, acks, ?_, ?_, ?_, hclient, ?_, hagrees⟩
    · rw [hgot]
      exact hup
    · rw [hrest]
      exact down
    · rw [hgot]
      exact Nat.zero_le _
    · exact hawaited.take hname

lemma handleEnd (h : InStep files directory all names packets acks s) (hreads : s.server.reads)
    (hlen : s.server.buf.length ≠ dataSize) (hup : s.up = []) (hclient : s.client.hasClosed) :
    InStep files directory all names [] acks { s with server := s.server.handleEnd } := by
  have hclosed := h.closed_of_client hclient
  obtain ⟨up, down, hserver, hclient, hawaited, hagrees⟩ := h
  rw [got_reading hreads] at up hserver
  rw [rest_reading hreads] at down
  have hnothing : s.client.rest = [] := by simp only [Client.rest, hclosed]
  rw [hup, hnothing] at up
  obtain ⟨rfl, hbuf⟩ := up.eq_nil length_bytes (lt_of_le_of_ne hserver hlen)
  rw [List.foldl_nil, settle_reading hreads] at hagrees
  simp only [Agrees, hclosed] at hagrees
  obtain ⟨hphases, hholds, hstdout, hall⟩ := hagrees
  have hphase : s.server.phase = .receiveFileName := by
    rcases hphases with hphase | hphase
    · exact hphase
    · rcases hreads with hreads | hreads <;> cases hphase.symm.trans hreads
  have hnext : s.server.handleEnd = { s.server with phase := .disconnected } := by
    simp only [Server.handleEnd, hphase, hbuf, if_true]
  rw [hnext]
  refine ⟨?_, down, Nat.zero_le _, hclient, hawaited, ?_⟩
  · rw [hup, hnothing]
    rfl
  · simp only [Agrees, hclosed]
    exact ⟨Or.inr rfl, ⟨hholds.directory_eq, hholds.stdout_eq⟩, hstdout, hall⟩

lemma serverReads (h : InStep files directory all names packets acks s) (hreads : s.server.reads)
    (hs : s.serverReads k = some s') :
    ∃ packets' acks', InStep files directory all names packets' acks' s' := by
  simp only [State.serverReads] at hs
  split at hs
  case isTrue hlen =>
    obtain rfl := Option.some.inj hs
    exact h.handle hreads hlen
  case isFalse hlen =>
    split at hs
    case isTrue hend =>
      obtain rfl := Option.some.inj hs
      exact ⟨[], acks, h.handleEnd hreads hlen hend.1 hend.2⟩
    case isFalse =>
      obtain ⟨⟨up', buf'⟩, htransfer, rfl⟩ := Option.map_eq_some_iff.mp hs
      obtain ⟨chunk, hup, rfl, -, hle⟩ := transfer_eq_some htransfer
      obtain ⟨up, down, hserver, hclient, hawaited, hagrees⟩ := h
      have hreads' : Server.reads { s.server with buf := s.server.buf ++ chunk } := hreads
      rw [settle_reading hreads] at hagrees
      rw [got_reading hreads, hup] at up
      rw [rest_reading hreads] at down
      rw [got_reading hreads] at hserver
      refine ⟨packets, acks, ?_, ?_, ?_, hclient, hawaited, ?_⟩
      · rw [got_reading hreads']
        exact up.read
      · rw [rest_reading hreads']
        exact down
      · rw [got_reading hreads', List.length_append]
        omega
      · rw [settle_reading hreads']
        exact hagrees

lemma serverWrites (h : InStep files directory all names packets acks s)
    (hphase : s.server.phase = .sendAck) (hs : s.serverWrites capacity k = some s') :
    InStep files directory all names packets acks s' := by
  simp only [State.serverWrites] at hs
  split at hs
  case isTrue hbuf =>
    obtain rfl := Option.some.inj hs
    obtain ⟨up, down, hserver, hclient, hawaited, hagrees⟩ := h
    have hnext : s.server.written =
        { s.server with phase := .receiveFileData, totalCharsReceived := 0 } := by
      simp only [Server.written, hphase]
    have hsettle : s.server.settle = s.server.written.settle := by
      rw [hnext]
      simp only [Server.settle, hphase, Server.written]
    simp only [Server.got, hphase] at up
    simp only [Server.rest, hphase, hbuf] at down
    rw [hsettle] at hagrees
    refine ⟨?_, ?_, ?_, hclient, hawaited, hagrees⟩
    · simpa only [hnext, Server.got, hbuf] using up
    · simpa only [hnext, Server.rest] using down
    · simp only [hnext, Server.got, hbuf, List.length_nil, Nat.zero_le]
  case isFalse hbuf =>
    split at hs
    case isTrue hclosed =>
      -- the client waits for the ack
      have hphase' := h.closed_of_client hclosed
      have hawaited := h.awaited
      have down := h.down
      simp only [Client.awaits, hphase'] at hawaited
      have hacks := hawaited.answers_eq
      simp only [Server.rest, hphase, hacks, List.replicate_zero] at down
      exact (hbuf down.of_nil.2.2).elim
    case isFalse =>
      obtain ⟨⟨buf', down'⟩, htransfer, rfl⟩ := Option.map_eq_some_iff.mp hs
      obtain ⟨chunk, hbuf', rfl, -, -⟩ := transfer_eq_some htransfer
      obtain ⟨up, down, hserver, hclient, hawaited, hagrees⟩ := h
      simp only [Server.got, hphase] at up
      simp only [Server.rest, hphase, hbuf'] at down
      simp only [Server.settle, hphase] at hagrees
      refine ⟨?_, ?_, ?_, hclient, hawaited, ?_⟩
      · simpa only [Server.got, hphase] using up
      · simpa only [Server.rest, hphase] using down.write
      · simp only [Server.got, hphase, List.length_nil, Nat.zero_le]
      · simp only [Server.settle, hphase]
        simpa only [Server.written, hphase] using hagrees

lemma serverWritesFile (h : InStep files directory all names packets acks s)
    (hphase : s.server.phase = .writeFile) (hs : s.serverWritesFile k = some s') :
    InStep files directory all names packets acks s' := by
  obtain ⟨up, down, hserver, hclient, hawaited, hagrees⟩ := h
  simp only [Server.got, hphase] at up
  simp only [Server.rest, hphase] at down
  simp only [Server.settle, hphase, Server.written] at hagrees
  simp only [State.serverWritesFile] at hs
  split at hs
  case isTrue hbuf =>
    obtain rfl := Option.some.inj hs
    have happend : s.server.append [] = s.server.directory := by
      simp [Server.append]
    rw [hbuf, happend] at hagrees
    have hnext : s.server.written =
        { s.server with
          phase := .receiveFileData, totalCharsReceived := s.server.totalCharsReceived + s.server.size } := by
      simp only [Server.written, hphase]
    refine ⟨?_, ?_, ?_, hclient, hawaited, ?_⟩
    · simpa only [hnext, Server.got, hbuf] using up
    · simpa only [hnext, Server.rest] using down
    · simp only [hnext, Server.got, hbuf, List.length_nil, Nat.zero_le]
    · simpa only [hnext, Server.settle] using hagrees
  case isFalse =>
    obtain ⟨⟨buf', bytes⟩, htransfer, rfl⟩ := Option.map_eq_some_iff.mp hs
    obtain ⟨_, hbuf', rfl, -, -⟩ := transfer_eq_some htransfer
    have happend : Server.append
        { s.server with phase := .writeFile, buf := buf', directory := s.server.append bytes } buf' =
          s.server.append s.server.buf := by
      simp [Server.append, hbuf', Function.comp_def]
    refine ⟨?_, ?_, ?_, hclient, hawaited, ?_⟩
    · simpa only [Server.got, hphase] using up
    · simpa only [Server.rest, hphase] using down
    · simp only [Server.got, hphase, List.length_nil, Nat.zero_le]
    · simp only [Server.settle, hphase, Server.written]
      rwa [happend]

lemma of_serverStep (h : InStep files directory all names packets acks s)
    (hs : serverStep capacity k s = some s') :
    ∃ packets' acks', InStep files directory all names packets' acks' s' := by
  cases hphase : s.server.phase with
  | receiveFileName =>
    simp only [serverStep, hphase] at hs
    exact h.serverReads (Or.inl hphase) hs
  | receiveFileData =>
    simp only [serverStep, hphase] at hs
    exact h.serverReads (Or.inr hphase) hs
  | sendAck =>
    simp only [serverStep, hphase] at hs
    exact ⟨packets, acks, h.serverWrites hphase hs⟩
  | writeFile =>
    simp only [serverStep, hphase] at hs
    exact ⟨packets, acks, h.serverWritesFile hphase hs⟩
  | disconnected => simp only [serverStep, hphase, reduceCtorEq] at hs
  | failed => simp only [serverStep, hphase, reduceCtorEq] at hs

end InStep

end ServerSteps

section ClientSteps

namespace InStep

lemma stays (h : InStep files directory all names packets acks s) (hrest : client.rest = s.client.rest)
    (hgot : client.got = s.client.got) (hawaits : client.awaits = s.client.awaits)
    (hagrees : Agrees files directory all names' client (packets.foldl Server.process s.server.settle)) :
    InStep files directory all names' packets acks { s with client } := by
  obtain ⟨up, down, hserver, hclient, hawaited, -⟩ := h
  rw [← hrest] at up
  rw [← hgot] at down hclient
  rw [← hawaits] at hawaited
  exact ⟨up, down, hserver, hclient, hawaited, hagrees⟩

lemma sends (h : InStep files directory all names packets acks s) (hnothing : s.client.rest = [])
    (hrest : client.rest = data.bytes) (hgot : client.got = s.client.got)
    (hnone : s.client.awaits = 0) (hawaits : client.awaits = if isFileName data then 1 else 0)
    (hagrees : Agrees files directory all names' client
      ((packets.foldl Server.process s.server.settle).process data)) :
    InStep files directory all names' (packets ++ [data]) acks { s with client } := by
  obtain ⟨up, down, hserver, hclient, hawaited, -⟩ := h
  rw [hnothing] at up
  rw [← hgot] at down hclient
  refine ⟨?_, down, hserver, hclient, ?_, ?_⟩
  · rw [hrest]
    exact up.send data
  · rw [hawaits]
    rw [hnone] at hawaited
    exact hawaited.send data
  · rw [List.foldl_append]
    exact hagrees

lemma readLine (h : InStep files directory all names packets acks s) (hphase : s.client.phase = .prompt) :
    ∃ packets', InStep files directory all names packets' acks
      { s with client := s.client.readLine files } := by
  have hrest : s.client.rest = [] := by simp only [Client.rest, hphase]
  have hgot : s.client.got = [] := by simp only [Client.got, hphase]
  have hawaits : s.client.awaits = 0 := by simp only [Client.awaits, hphase]
  have hagrees := h.agrees
  simp only [Agrees, hphase] at hagrees
  obtain ⟨hview, hholds, hstdout, hall⟩ := hagrees
  cases hlines : s.client.lines with
  | nil =>
    rw [hlines, accepted, List.append_nil] at hall
    simp only [Client.readLine, hlines]
    exact ⟨packets, h.stays hrest.symm hgot.symm hawaits.symm ⟨Or.inl hview, hholds, hstdout, hall⟩⟩
  | cons line lines =>
    rw [hlines, accepted] at hall
    by_cases hquit : line.val = ascii "quit"
    · rw [if_pos hquit, List.append_nil] at hall
      simp only [Client.readLine, hlines, hquit, if_true]
      exact ⟨packets, h.stays hrest.symm hgot.symm hawaits.symm ⟨Or.inl hview, hholds, hstdout, hall⟩⟩
    · rw [if_neg hquit] at hall
      cases hopen : openFile files line.val with
      | none =>
        rw [hopen] at hall
        simp only [Client.readLine, hlines, hquit, if_false, hopen]
        refine ⟨packets, h.stays ?_ ?_ ?_ ?_⟩
        · simp only [Client.rest, hphase]
        · simp only [Client.got, hphase]
        · simp only [Client.awaits, hphase]
        · simp only [Agrees, hphase]
          exact ⟨hview, hholds, hstdout, hall⟩
      | some content =>
        rw [hopen] at hall
        simp only [Client.readLine, hlines, hquit, if_false, hopen]
        refine ⟨packets ++ [fileNameData line.val], h.sends hrest rfl hgot.symm hawaits rfl ?_⟩
        · rw [process_fileName hview line.property (openFile_eq_some hopen).2.1]
          refine ⟨⟨hopen, rfl, rfl, rfl, ?_, ?_⟩, hstdout, hall⟩
          · rw [hholds.directory_eq]
          · rw [hholds.stdout_eq]

lemma handleAck (h : InStep files directory all names packets acks s)
    (hphase : s.client.phase = .receiveAck) (hlen : s.client.buf.length = dataSize) :
    ∃ acks', InStep files directory all names packets acks'
      { s with client := s.client.handleAck (deserializeData (.ofMemory s.client.buf hlen)) } := by
  obtain ⟨up, down, hserver, -, hawaited, hagrees⟩ := h
  simp only [Client.rest, hphase] at up
  simp only [Client.got, hphase] at down
  simp only [Client.awaits, hphase] at hawaited
  simp only [Agrees, hphase] at hagrees
  obtain ⟨hcopying, hstdout, hall⟩ := hagrees
  obtain ⟨ack, packets', hacks, hbytes, hdown⟩ := down.receive length_bytes (by decide) hlen
  cases acks with
  | zero => cases hacks
  | succ acks =>
    obtain ⟨rfl, rfl⟩ := List.cons.inj hacks
    rw [deserialize_bytes hbytes hlen]
    have hnext : s.client.handleAck (.zeroed .ack) =
        { s.client with
          phase := .readFile, buf := [], totalCharsSent := 0, fileData := .zeroed .sendFileData
          stdout := s.client.stdout ++ [.sending s.client.fileName] } :=
      if_neg (not_not_intro rfl)
    rw [hnext]
    refine ⟨acks, up, hdown, hserver, ?_, ?_, ⟨[], hcopying, rfl⟩, ?_, hall⟩
    · simp only [Client.got, List.length_nil, Nat.zero_le]
    · simp only [Client.awaits]
      exact hawaited.settle.2
    · rw [hstdout]

lemma readPiece (h : InStep files directory all names packets acks s)
    (hphase : s.client.phase = .readFile) (hs : s.client.readPiece k = some client) :
    ∃ packets', InStep files directory all names packets' acks { s with client } := by
  have hrest : s.client.rest = [] := by simp only [Client.rest, hphase]
  have hawaits : s.client.awaits = 0 := by simp only [Client.awaits, hphase]
  have hagrees := h.agrees
  simp only [Agrees, hphase] at hagrees
  obtain ⟨⟨part, hcopying, htotal⟩, hstdout, hall⟩ := hagrees
  have hopen := openFile_eq_some hcopying.opened
  simp only [Client.readPiece] at hs
  split at hs
  case isTrue hfd =>
    obtain rfl := Option.some.inj hs
    rw [hfd, List.append_nil] at hopen
    refine ⟨packets ++ [.zeroed .endOfFile], h.sends hrest ?_ ?_ hawaits rfl ?_⟩
    · simp only [Client.rest]
    · simp only [Client.got, hphase]
    · rw [process_endOfFile hcopying.phase_eq]
      have hsize : fileSize files s.client.fileName = part.length := by
        simp only [fileSize, hopen.1]
      refine ⟨⟨rfl, ⟨?_, ?_⟩, ?_⟩, hstdout, hall⟩
      · simp only [Server.closeFile, hcopying.directory_eq, copies_concat, hopen.1]
      · simp only [Server.closeFile, hcopying.stdout_eq, hcopying.total_eq, List.flatMap_append,
          List.flatMap_singleton, receivedLines, hsize, List.append_assoc, List.cons_append,
          List.nil_append]
      · rw [hsize, htotal]
  case isFalse =>
    split at hs
    case isFalse => cases hs
    case isTrue hk =>
      obtain rfl := Option.some.inj hs
      have hpiece : (s.client.fd.take k).length ≤ maxLine := (List.length_take_le k _).trans hk.2.1
      have hsplit : part ++ s.client.fd = part ++ s.client.fd.take k ++ s.client.fd.drop k := by
        rw [List.append_assoc, List.take_append_drop]
      have hlt : part.length + (s.client.fd.take k).length < 200000 := by
        have hlarge := hopen.2.2
        rw [hsplit, List.length_append, List.length_append] at hlarge
        omega
      refine ⟨packets ++ [s.client.fileData.fill (s.client.fd.take k) hpiece],
        h.sends hrest ?_ ?_ hawaits rfl ?_⟩
      · simp only [Client.rest]
      · simp only [Client.got, hphase]
      · rw [← hcopying.total_eq] at hlt
        rw [process_fileData hcopying.phase_eq hpiece hlt]
        refine ⟨⟨part ++ s.client.fd.take k, ⟨?_, hcopying.phase_eq, hcopying.copyFileName_eq, ?_, ?_,
          hcopying.stdout_eq⟩, ?_⟩, hstdout, hall⟩
        · rw [← hsplit]
          exact hcopying.opened
        · simp only [hcopying.total_eq, List.length_append]
        · simp [Server.append, hcopying.directory_eq, hcopying.copyFileName_eq]
        · have hsize : (s.client.fileData.fill (s.client.fd.take k) hpiece).size.toNat =
              (s.client.fd.take k).length := size_fill hpiece
          rw [List.length_append, htotal, hsize]

lemma written (h : InStep files directory all names packets acks s) (hwrites : s.client.writes)
    (hbuf : s.client.buf = []) :
    ∃ names', InStep files directory all names' packets acks { s with client := s.client.written } := by
  have hagrees := h.agrees
  have hrest : s.client.rest = [] := by rw [rest_writing hwrites, hbuf]
  rcases hwrites with hphase | hphase | hphase
  · simp only [Agrees, hphase] at hagrees
    simp only [Client.written, hphase]
    refine ⟨names, h.stays hrest.symm ?_ ?_ hagrees⟩
    · simp only [Client.got, hphase, hbuf]
    · simp only [Client.awaits, hphase]
  · simp only [Agrees, hphase] at hagrees
    simp only [Client.written, hphase]
    refine ⟨names, h.stays hrest.symm ?_ ?_ hagrees⟩
    · simp only [Client.got, hphase]
    · simp only [Client.awaits, hphase]
  · simp only [Agrees, hphase] at hagrees
    obtain ⟨⟨hview, hholds, htotal⟩, hstdout, hall⟩ := hagrees
    simp only [Client.written, hphase]
    refine ⟨names ++ [s.client.fileName], h.stays hrest.symm ?_ ?_ ⟨hview, hholds, ?_, ?_⟩⟩
    · simp only [Client.got, hphase]
    · simp only [Client.awaits, hphase]
    · simp only [hstdout, htotal, List.flatMap_append, List.flatMap_singleton, sentLines,
        List.append_assoc, List.cons_append, List.nil_append]
    · rw [List.append_assoc, List.singleton_append]
      exact hall

lemma clientWrites (h : InStep files directory all names packets acks s) (hwrites : s.client.writes)
    (hs : s.clientWrites capacity k = some s') :
    ∃ names', InStep files directory all names' packets acks s' := by
  simp only [State.clientWrites] at hs
  split at hs
  case isTrue hbuf =>
    obtain rfl := Option.some.inj hs
    exact h.written hwrites hbuf
  case isFalse =>
    split at hs
    case isTrue hclosed =>
      have hphase' := h.closed_of_server hclosed
      rcases hwrites with hphase | hphase | hphase <;> cases hphase.symm.trans hphase'
    case isFalse =>
      obtain ⟨⟨buf', up'⟩, htransfer, rfl⟩ := Option.map_eq_some_iff.mp hs
      obtain ⟨chunk, hbuf', rfl, -, -⟩ := transfer_eq_some htransfer
      obtain ⟨up, down, hserver, hclient, hawaited, hagrees⟩ := h
      have hwrites' : Client.writes { s.client with buf := buf' } := hwrites
      rw [rest_writing hwrites, hbuf'] at up
      refine ⟨names, ?_, ?_, hserver, ?_, hawaited, ?_⟩
      · rw [rest_writing hwrites']
        exact up.write
      · rw [got_writing hwrites']
        rwa [got_writing hwrites] at down
      · rw [got_writing hwrites', List.length_nil]
        exact Nat.zero_le _
      · rcases hwrites with hphase | hphase | hphase
        · simpa only [Agrees, hphase] using hagrees
        · simpa only [Agrees, hphase] using hagrees
        · simpa only [Agrees, hphase] using hagrees

lemma clientReads (h : InStep files directory all names packets acks s)
    (hphase : s.client.phase = .receiveAck) (hs : s.clientReads k = some s') :
    ∃ acks', InStep files directory all names packets acks' s' := by
  simp only [State.clientReads] at hs
  split at hs
  case isTrue hlen =>
    obtain rfl := Option.some.inj hs
    exact h.handleAck hphase hlen
  case isFalse =>
    split at hs
    case isTrue hend => cases hphase.symm.trans (h.closed_of_server hend.2)
    case isFalse =>
      obtain ⟨⟨down', buf'⟩, htransfer, rfl⟩ := Option.map_eq_some_iff.mp hs
      obtain ⟨chunk, hdown, rfl, -, hle⟩ := transfer_eq_some htransfer
      obtain ⟨up, down, hserver, hclient, hawaited, hagrees⟩ := h
      simp only [Client.rest, hphase] at up
      simp only [Client.got, hphase, hdown] at down hclient
      simp only [Agrees, hphase] at hagrees
      refine ⟨acks, ?_, ?_, hserver, ?_, hawaited, ?_⟩
      · simpa only [Client.rest, hphase] using up
      · simpa only [Client.got, hphase] using down.read
      · simp only [Client.got, hphase, List.length_append]
        omega
      · simpa only [Agrees, hphase] using hagrees

lemma of_clientStep (h : InStep files directory all names packets acks s)
    (hs : clientStep files capacity k s = some s') :
    ∃ names' packets' acks', InStep files directory all names' packets' acks' s' := by
  cases hphase : s.client.phase with
  | prompt =>
    simp only [clientStep, hphase] at hs
    obtain rfl := Option.some.inj hs
    exact ⟨names, (h.readLine hphase).imp fun _ h => ⟨acks, h⟩⟩
  | receiveAck =>
    simp only [clientStep, hphase] at hs
    exact ⟨names, packets, h.clientReads hphase hs⟩
  | readFile =>
    simp only [clientStep, hphase] at hs
    obtain ⟨client, hclient, rfl⟩ := Option.map_eq_some_iff.mp hs
    exact ⟨names, (h.readPiece hphase hclient).imp fun _ h => ⟨acks, h⟩⟩
  | sendFileName =>
    simp only [clientStep, hphase] at hs
    exact (h.clientWrites (Or.inl hphase) hs).imp fun _ h => ⟨packets, acks, h⟩
  | sendFileData =>
    simp only [clientStep, hphase] at hs
    exact (h.clientWrites (Or.inr (Or.inl hphase)) hs).imp fun _ h => ⟨packets, acks, h⟩
  | sendEof =>
    simp only [clientStep, hphase] at hs
    exact (h.clientWrites (Or.inr (Or.inr hphase)) hs).imp fun _ h => ⟨packets, acks, h⟩
  | closed => simp only [clientStep, hphase, reduceCtorEq] at hs
  | failed => simp only [clientStep, hphase, reduceCtorEq] at hs

lemma start (lines : List CString) :
    InStep files directory (accepted files lines) [] [] 0 (start lines directory) where
  up := rfl
  down := rfl
  serverGot_le := Nat.zero_le _
  clientGot_le := Nat.zero_le _
  awaited := .idle nofun
  agrees := ⟨rfl, ⟨rfl, rfl⟩, rfl, rfl⟩

lemma run {actions : List Action} (h : InStep files directory all names packets acks s)
    (hrun : FileTransfer.run files capacity s actions = some s') :
    ∃ names' packets' acks', InStep files directory all names' packets' acks' s' := by
  induction actions generalizing s names packets acks with
  | nil =>
    obtain rfl := Option.some.inj hrun
    exact ⟨names, packets, acks, h⟩
  | cons action actions ih =>
    obtain ⟨next, hs, hrest⟩ := Option.bind_eq_some_iff.mp hrun
    cases action with
    | client k =>
      obtain ⟨names', packets', acks', h'⟩ := h.of_clientStep hs
      exact ih h' hrest
    | server k =>
      obtain ⟨packets', acks', h'⟩ := h.of_serverStep hs
      exact ih h' hrest
    | interrupted =>
      obtain rfl := Option.some.inj hs
      exact ih h hrest

end InStep

end ClientSteps

end SystemsLab.FileTransfer
