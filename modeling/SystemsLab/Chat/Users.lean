import SystemsLab.Chat.Server
import Mathlib.Data.List.Nodup

namespace SystemsLab.Chat

open CLib

variable {w w' : World} {input : Input} {server server' : Server} {i fd : ℕ} {entry : Pollfd}
  {effects : List Effect}

def World.ready (w : World) (i : ℕ) (entry : Pollfd) : Prop :=
  w.scan = some i ∧ w.server.fds[i]? = some entry ∧ entry.pollin = true

def Input.joins (input : Input) : Prop := input.read.type? = some .newUser ∧ input.broken = false

def Input.leaves (input : Input) : Prop :=
  input.read = .eof ∨ input.read = .reset ∨ input.read.type? = some .userLeft ∧ input.broken = false

/-- What the kernel promises: a new descriptor is in use nowhere. -/
def Kernel (w : World) (input : Input) : Prop :=
  ∀ fd, input.conn = some fd → fd ∉ w.sockets ∧ fd ≠ w.server.listenfd

def World.users (w : World) : ℕ := (w.sockets ∩ w.joined).card

structure Tabled (w : World) : Prop where
  listen : w.server.listenfd ∉ w.sockets
  clients : ∃ clients : List ℕ, w.server.fds.map Pollfd.fd = w.server.listenfd :: clients ∧
    clients.Nodup ∧ ∀ fd, fd ∈ clients ↔ fd ∈ w.sockets

inductive Change (w : World) (input : Input) : World → Prop
  | quiet {w' : World} (hlisten : w'.server.listenfd = w.server.listenfd)
    (hfds : w'.server.fds.map Pollfd.fd = w.server.fds.map Pollfd.fd)
    (hclients : w'.server.nClients = w.server.nClients) (hsockets : w'.sockets = w.sockets)
    (hjoined : w'.joined = w.joined)
    (hinput : ∀ i entry, w.ready i entry → entry.fd ≠ w.server.listenfd →
      ¬input.joins ∧ ¬input.leaves)
    (hroom : ∀ i entry, w.ready i entry → entry.fd ≠ w.server.listenfd) : Change w input w'
  | accept {w' : World} {i fd : ℕ} {entry : Pollfd} (hready : w.ready i entry)
    (hentry : entry.fd = w.server.listenfd) (hconn : input.conn = some fd)
    (hroom : w.server.fds.length < nConnections) (hlisten : w'.server.listenfd = w.server.listenfd)
    (hfds : w'.server.fds = w.server.fds ++ [⟨fd, false⟩])
    (hclients : w'.server.nClients = w.server.nClients) (hsockets : w'.sockets = insert fd w.sockets)
    (hjoined : w'.joined = w.joined.erase fd) : Change w input w'
  | join {w' : World} {i : ℕ} {entry : Pollfd} (hready : w.ready i entry)
    (hentry : entry.fd ≠ w.server.listenfd) (hjoins : input.joins)
    (hlisten : w'.server.listenfd = w.server.listenfd) (hfds : w'.server.fds = w.server.fds)
    (hclients : w'.server.nClients = w.server.nClients + 1) (hsockets : w'.sockets = w.sockets)
    (hjoined : w'.joined = insert entry.fd w.joined) : Change w input w'
  | leave {w' : World} {i : ℕ} {entry : Pollfd} (hready : w.ready i entry)
    (hentry : entry.fd ≠ w.server.listenfd) (hleaves : input.leaves)
    (hlisten : w'.server.listenfd = w.server.listenfd)
    (hfds : w'.server.fds = w.server.fds.eraseIdx i)
    (hclients : w'.server.nClients = w.server.nClients - 1)
    (hsockets : w'.sockets = w.sockets.erase entry.fd) (hjoined : w'.joined = w.joined) :
    Change w input w'

lemma closedBy_broadcast (msg : Bytes) (i : ℕ) (fds : List Pollfd) (effects : List Effect) :
    closedBy (broadcastMessage msg i fds ++ effects) = closedBy effects := by
  have hnone : closedBy (broadcastMessage msg i fds) = [] := by
    rw [closedBy, broadcastMessage, List.filterMap_filterMap, List.filterMap_eq_nil_iff]
    rintro ⟨entry, j⟩ -
    dsimp only
    split_ifs
    · rfl
    · rfl
  rw [closedBy, List.filterMap_append, ← closedBy, hnone, List.nil_append]
  rfl

lemma closedBy_print (line : Line) : closedBy [.print line] = [] := rfl

lemma handleDisconnection_eq (hi : server.fds[i]? = some entry) (username : Bytes) :
    (handleDisconnection server i username).1 =
        { server with fds := server.fds.eraseIdx i, nClients := server.nClients - 1 } ∧
      closedBy (handleDisconnection server i username).2 = [entry.fd] := by
  have hclients : (if server.nClients ≠ 0 then server.nClients - 1 else server.nClients) =
      server.nClients - 1 := by
    split_ifs <;> omega
  rw [handleDisconnection, hclients, hi]
  exact ⟨rfl, rfl⟩

lemma handleClientData_ok (hi : server.fds[i]? = some entry)
    (h : handleClientData server i input.broken input.read = .ok (server', effects)) :
    (input.joins ∧ server' = { server with nClients := server.nClients + 1 } ∧ closedBy effects = []) ∨
    (input.leaves ∧
      server' = { server with fds := server.fds.eraseIdx i, nClients := server.nClients - 1 } ∧
      closedBy effects = [entry.fd]) ∨
    (input.read.type? ≠ some .newUser ∧ ¬input.leaves ∧ server' = server ∧ closedBy effects = []) := by
  have hdisconnect := handleDisconnection_eq hi
  simp only [Input.joins, Input.leaves]
  cases hread : input.read with
  | eof =>
    rw [hread] at h
    obtain ⟨hs, he⟩ := hdisconnect (ascii "An unknown user")
    rw [Except.ok.inj h] at hs he
    exact Or.inr (Or.inl ⟨Or.inl rfl, hs, he⟩)
  | reset =>
    rw [hread] at h
    obtain ⟨hs, he⟩ := hdisconnect (ascii "An unknown user")
    rw [Except.ok.inj h] at hs he
    exact Or.inr (Or.inl ⟨Or.inr (Or.inl rfl), hs, he⟩)
  | error =>
    rw [hread] at h
    cases h
  | data bytes =>
    simp only [hread, handleClientData, ReadResult.type?] at h ⊢
    cases htype : typeOf (cleared bytes) with
    | none =>
      simp only [htype, Except.ok.injEq, Prod.mk.injEq] at h
      obtain ⟨rfl, rfl⟩ := h
      exact Or.inr (Or.inr ⟨nofun, by simp, rfl, rfl⟩)
    | some type =>
      simp only [htype] at h
      split_ifs at h with hbroken
      have hbroken' : input.broken = false := by simpa using hbroken
      cases type with
      | newUser =>
        simp only [Except.ok.injEq, Prod.mk.injEq] at h
        obtain ⟨rfl, rfl⟩ := h
        exact Or.inl ⟨⟨rfl, hbroken'⟩, rfl, by rw [closedBy_broadcast, closedBy_print]⟩
      | userLeft =>
        simp only [Except.ok.injEq, Prod.mk.injEq] at h
        obtain ⟨rfl, rfl⟩ := h
        obtain ⟨hs, he⟩ := hdisconnect (usernameOf (cleared bytes))
        exact Or.inr (Or.inl ⟨Or.inr (Or.inr ⟨rfl, hbroken'⟩), hs, by rw [closedBy_broadcast, he]⟩)
      | userMessage =>
        simp only [Except.ok.injEq, Prod.mk.injEq] at h
        obtain ⟨rfl, rfl⟩ := h
        exact Or.inr (Or.inr ⟨nofun, by simp, rfl, by rw [closedBy_broadcast, closedBy_print]⟩)

lemma Input.leaves.type_ne (h : input.leaves) : input.read.type? ≠ some .newUser := by
  rcases h with h | h | h
  · simp [h, ReadResult.type?]
  · simp [h, ReadResult.type?]
  · simp [h.1]

lemma ready_unique {j : ℕ} {other : Pollfd} (h : w.ready i entry) (h' : w.ready j other) :
    i = j ∧ entry = other := by
  obtain ⟨hi, he, -⟩ := h
  obtain ⟨hj, ho, -⟩ := h'
  rw [hi, Option.some.injEq] at hj
  subst hj
  rw [he, Option.some.injEq] at ho
  exact ⟨rfl, ho⟩

lemma Change.idle (hnot : ∀ i entry, ¬w.ready i entry)
    (hlisten : w'.server.listenfd = w.server.listenfd)
    (hfds : w'.server.fds.map Pollfd.fd = w.server.fds.map Pollfd.fd)
    (hclients : w'.server.nClients = w.server.nClients) (hsockets : w'.sockets = w.sockets)
    (hjoined : w'.joined = w.joined) : Change w input w' :=
  .quiet hlisten hfds hclients hsockets hjoined (fun i entry hready => (hnot i entry hready).elim)
    fun i entry hready => (hnot i entry hready).elim

lemma not_ready_of_scan_none (hscan : w.scan = none) (i : ℕ) (entry : Pollfd) : ¬w.ready i entry := by
  intro hready
  rw [World.ready, hscan] at hready
  cases hready.1

lemma not_ready_of_scan (hscan : w.scan = some i)
    (hentry : ∀ entry, w.server.fds[i]? = some entry → ¬entry.pollin = true) (j : ℕ) (entry : Pollfd) :
    ¬w.ready j entry := by
  intro hready
  rw [World.ready, hscan, Option.some.injEq] at hready
  obtain ⟨rfl, hsome, hpollin⟩ := hready
  exact hentry entry hsome hpollin

lemma step_change (h : step w input = .ok w') : Change w input w' := by
  rw [step] at h
  cases hscan : w.scan with
  | none =>
    simp only [hscan] at h
    cases hready : input.ready with
    | none =>
      rw [hready] at h
      cases h
    | some ready =>
      simp only [hready, Except.ok.injEq] at h
      subst h
      refine .idle (not_ready_of_scan_none hscan) rfl ?_ rfl rfl rfl
      apply List.ext_getElem?
      intro j
      simp [Option.map_map, Function.comp_def]
  | some i =>
    simp only [hscan] at h
    cases hentry : w.server.fds[i]? with
    | none =>
      simp only [hentry, Except.ok.injEq] at h
      subst h
      refine .idle (not_ready_of_scan hscan fun entry hsome => ?_) rfl rfl rfl rfl rfl
      rw [hentry] at hsome
      cases hsome
    | some entry =>
      simp only [hentry] at h
      by_cases hpollin : entry.pollin = true
      · have hready : w.ready i entry := ⟨hscan, hentry, hpollin⟩
        by_cases hlisten : entry.fd = w.server.listenfd
        · simp only [hpollin, Bool.not_true, Bool.false_eq_true, if_false, hlisten, if_true] at h
          cases hconn : input.conn with
          | none =>
            rw [hconn] at h
            cases h
          | some fd =>
            simp only [hconn, handleNewConnection] at h
            by_cases hroom : w.server.fds.length < nConnections
            · simp only [hroom, if_true] at h
              obtain rfl := Except.ok.inj h
              refine .accept hready hlisten hconn hroom rfl rfl rfl ?_ ?_
              · ext c
                simp
              · ext c
                simp [and_comm]
            · simp only [hroom, if_false] at h
              cases h
        · simp only [hpollin, Bool.not_true, Bool.false_eq_true, if_false, hlisten] at h
          cases hdata : handleClientData w.server i input.broken input.read with
          | error stop =>
            rw [hdata] at h
            cases h
          | ok result =>
            obtain ⟨server, effects⟩ := result
            rw [hdata] at h
            obtain rfl := Except.ok.inj h
            rcases handleClientData_ok hentry hdata with ⟨hjoins, rfl, hclosed⟩ |
              ⟨hleaves, rfl, hclosed⟩ | ⟨hjoins, hleaves, rfl, hclosed⟩
            · refine .join hready hlisten hjoins rfl rfl rfl ?_ ?_
              · simp [hclosed]
              · simp [hjoins.1]
            · refine .leave hready hlisten hleaves rfl rfl rfl ?_ ?_
              · simp [hclosed, Finset.sdiff_singleton_eq_erase]
              · simp [hleaves.type_ne]
            · refine .quiet rfl rfl rfl ?_ ?_ ?_ ?_
              · simp [hclosed]
              · simp [hjoins]
              · exact fun _ _ _ _ => ⟨fun hj => hjoins hj.1, hleaves⟩
              · intro j other hother heq
                obtain ⟨rfl, rfl⟩ := ready_unique hready hother
                exact hlisten heq
      · simp only [hpollin, Bool.not_false, if_true, Except.ok.injEq] at h
        subst h
        refine .idle (not_ready_of_scan hscan fun other hsome => ?_) rfl rfl rfl rfl rfl
        rw [hentry, Option.some.injEq] at hsome
        exact hsome ▸ hpollin

lemma Tabled.client (h : Tabled w) (hready : w.ready i entry) (hentry : entry.fd ≠ w.server.listenfd) :
    ∃ (j : ℕ) (clients : List ℕ), i = j + 1 ∧
      w.server.fds.map Pollfd.fd = w.server.listenfd :: clients ∧ clients.Nodup ∧
      (∀ fd, fd ∈ clients ↔ fd ∈ w.sockets) ∧ clients[j]? = some entry.fd ∧ entry.fd ∈ w.sockets := by
  obtain ⟨clients, hfds, hnodup, hmem⟩ := h.clients
  have hget : (w.server.listenfd :: clients)[i]? = some entry.fd := by
    rw [← hfds, List.getElem?_map, hready.2.1]
    rfl
  cases i with
  | zero =>
    rw [List.getElem?_cons_zero, Option.some.injEq] at hget
    exact (hentry hget.symm).elim
  | succ j =>
    rw [List.getElem?_cons_succ] at hget
    exact ⟨j, clients, rfl, hfds, hnodup, hmem, hget, (hmem _).mp (List.mem_of_getElem? hget)⟩

lemma Tabled.step (h : Tabled w) (hkernel : Kernel w input) (hchange : Change w input w') :
    Tabled w' := by
  obtain ⟨clients, hclients, hnodup, hmem⟩ := h.clients
  cases hchange with
  | quiet hlisten hfds _ hsockets _ _ _ =>
    refine ⟨?_, clients, by rw [hfds, hclients, hlisten], hnodup, by simpa only [hsockets] using hmem⟩
    rw [hlisten, hsockets]
    exact h.listen
  | @accept i fd entry _ _ hconn _ hlisten hfds _ hsockets _ =>
    obtain ⟨hfresh, hne⟩ := hkernel fd hconn
    refine ⟨?_, clients ++ [fd], ?_, ?_, ?_⟩
    · rw [hlisten, hsockets, Finset.mem_insert, not_or]
      exact ⟨Ne.symm hne, h.listen⟩
    · rw [hfds, List.map_append, hclients, hlisten]
      rfl
    · rw [List.nodup_append]
      refine ⟨hnodup, List.nodup_singleton fd, ?_⟩
      intro a ha b hb
      rw [List.mem_singleton.mp hb]
      rintro rfl
      exact hfresh ((hmem a).mp ha)
    · intro c
      rw [hsockets, List.mem_append, List.mem_singleton, Finset.mem_insert, hmem, or_comm]
  | join _ _ _ hlisten hfds _ hsockets _ =>
    refine ⟨?_, clients, by rw [hfds, hclients, hlisten], hnodup, by simpa only [hsockets] using hmem⟩
    rw [hlisten, hsockets]
    exact h.listen
  | @leave i entry hready hentry _ hlisten hfds _ hsockets _ =>
    obtain ⟨j, clients, rfl, hclients, hnodup, hmem, hget, -⟩ := h.client hready hentry
    obtain ⟨hj, hget⟩ := List.getElem?_eq_some_iff.mp hget
    refine ⟨?_, clients.eraseIdx j, ?_, hnodup.sublist (List.eraseIdx_sublist _ _), ?_⟩
    · rw [hlisten, hsockets]
      exact fun hmem' => h.listen (Finset.mem_of_mem_erase hmem')
    · rw [hfds, hlisten, ← List.eraseIdx_map, hclients, List.eraseIdx_cons_succ]
    · intro c
      rw [hsockets, Finset.mem_erase, ← hmem, ← hnodup.erase_getElem j hj, hnodup.mem_erase_iff, hget]

structure Meets (w : World) (input : Input) : Prop where
  room : ∀ i entry, w.ready i entry → entry.fd = w.server.listenfd → input.conn ≠ none →
    w.server.fds.length < nConnections
  first : ∀ i entry, w.ready i entry → entry.fd ≠ w.server.listenfd → input.joins →
    entry.fd ∉ w.joined
  member : ∀ i entry, w.ready i entry → entry.fd ≠ w.server.listenfd → input.leaves →
    entry.fd ∈ w.joined ∨ w.server.nClients = 0

lemma Meets.of_ready (hready : w.ready i entry)
    (hroom : entry.fd = w.server.listenfd → input.conn ≠ none → w.server.fds.length < nConnections)
    (hfirst : entry.fd ≠ w.server.listenfd → input.joins → entry.fd ∉ w.joined)
    (hmember : entry.fd ≠ w.server.listenfd → input.leaves →
      entry.fd ∈ w.joined ∨ w.server.nClients = 0) : Meets w input where
  room j other hother := by
    obtain ⟨rfl, rfl⟩ := ready_unique hready hother
    exact hroom
  first j other hother := by
    obtain ⟨rfl, rfl⟩ := ready_unique hready hother
    exact hfirst
  member j other hother := by
    obtain ⟨rfl, rfl⟩ := ready_unique hready hother
    exact hmember

lemma users_join {S J : Finset ℕ} (hfd : fd ∈ S) :
    (S ∩ insert fd J).card = (S ∩ J).card + 1 ↔ fd ∉ J := by
  by_cases hj : fd ∈ J
  · simp [hj]
  · have hnot : fd ∉ S ∩ J := fun hmem => hj (Finset.mem_of_mem_inter_right hmem)
    rw [Finset.inter_insert_of_mem hfd, Finset.card_insert_of_notMem hnot]
    simp [hj]

lemma users_leave {S J : Finset ℕ} (hfd : fd ∈ S) :
    (S ∩ J).card - 1 = (S.erase fd ∩ J).card ↔ fd ∈ J ∨ (S ∩ J).card = 0 := by
  rw [Finset.erase_inter]
  by_cases hj : fd ∈ J
  · have hmem : fd ∈ S ∩ J := Finset.mem_inter.mpr ⟨hfd, hj⟩
    rw [Finset.card_erase_of_mem hmem]
    simp [hj]
  · have hnot : fd ∉ S ∩ J := fun hmem => hj (Finset.mem_of_mem_inter_right hmem)
    rw [Finset.erase_eq_of_notMem hnot]
    simp only [hj, false_or]
    omega

lemma count_iff (h : Tabled w) (hkernel : Kernel w input) (hcount : w.server.nClients = w.users)
    (hchange : Change w input w') : w'.server.nClients = w'.users ↔ Meets w input := by
  rw [World.users] at hcount ⊢
  cases hchange with
  | quiet _ _ hclients hsockets hjoined hinput hroom =>
    rw [hclients, hsockets, hjoined]
    refine iff_of_true hcount ⟨fun i entry hready hentry => (hroom i entry hready hentry).elim, ?_, ?_⟩
    · exact fun i entry hready hentry hjoins => ((hinput i entry hready hentry).1 hjoins).elim
    · exact fun i entry hready hentry hleaves => ((hinput i entry hready hentry).2 hleaves).elim
  | @accept i fd entry hready hentry hconn hroom _ _ hclients hsockets hjoined =>
    obtain ⟨hfresh, -⟩ := hkernel fd hconn
    have hsame : insert fd w.sockets ∩ w.joined.erase fd = w.sockets ∩ w.joined := by
      rw [Finset.insert_inter_of_notMem (Finset.notMem_erase fd _), Finset.inter_erase]
      exact Finset.erase_eq_of_notMem fun hmem => hfresh (Finset.mem_of_mem_inter_left hmem)
    rw [hclients, hsockets, hjoined, hsame]
    exact iff_of_true hcount (.of_ready hready (fun _ _ => hroom) (fun hne => (hne hentry).elim)
      fun hne => (hne hentry).elim)
  | @join i entry hready hentry hjoins _ _ hclients hsockets hjoined =>
    obtain ⟨-, -, -, -, -, -, -, hopen⟩ := h.client hready hentry
    rw [hclients, hsockets, hjoined, hcount, eq_comm, users_join hopen]
    refine ⟨fun hnot => ?_, fun hmeets => hmeets.first i entry hready hentry hjoins⟩
    exact .of_ready hready (fun heq => (hentry heq).elim) (fun _ _ => hnot)
      fun _ hleaves => (hleaves.type_ne hjoins.1).elim
  | @leave i entry hready hentry hleaves _ _ hclients hsockets hjoined =>
    obtain ⟨-, -, -, -, -, -, -, hopen⟩ := h.client hready hentry
    rw [hclients, hsockets, hjoined, hcount, users_leave hopen, ← hcount]
    refine ⟨fun hmember => ?_, fun hmeets => hmeets.member i entry hready hentry hleaves⟩
    exact .of_ready hready (fun heq => (hentry heq).elim)
      (fun _ hjoins => (hleaves.type_ne hjoins.1).elim) fun _ _ => hmember

lemma handleClientData_ne_overrun {broken : Bool} {read : ReadResult} :
    handleClientData server i broken read ≠ .error .overrun := by
  cases read with
  | data bytes =>
    simp only [handleClientData]
    cases htype : typeOf (cleared bytes) with
    | none => exact nofun
    | some type =>
      cases broken with
      | true => exact nofun
      | false => cases type <;> exact nofun
  | _ => exact nofun

lemma handleClientData_isOk (h : input.joins ∨ input.leaves) :
    ∃ result, handleClientData server i input.broken input.read = .ok result := by
  cases hread : input.read with
  | eof => exact ⟨_, rfl⟩
  | reset => exact ⟨_, rfl⟩
  | error => simp [Input.joins, Input.leaves, hread, ReadResult.type?] at h
  | data bytes =>
    simp only [Input.joins, Input.leaves, hread, ReadResult.type?, reduceCtorEq, false_or] at h
    simp only [handleClientData]
    rcases h with ⟨htype, hbroken⟩ | ⟨htype, hbroken⟩
    · rw [htype, hbroken]
      exact ⟨_, rfl⟩
    · rw [htype, hbroken]
      exact ⟨_, rfl⟩

lemma step_client (hready : w.ready i entry) (hentry : entry.fd ≠ w.server.listenfd) :
    step w input = (handleClientData w.server i input.broken input.read).map fun result =>
      { w with
        server := result.1
        scan := some (i + 1)
        sockets := w.sockets \ (closedBy result.2).toFinset
        joined := if input.read.type? = some .newUser then insert entry.fd w.joined else w.joined } := by
  obtain ⟨hscan, hget, hpollin⟩ := hready
  simp only [step, hscan, hget, hpollin, Bool.not_true, Bool.false_eq_true, if_false, hentry]
  cases handleClientData w.server i input.broken input.read with
  | error stop => rfl
  | ok result => rfl

lemma step_overrun : step w input = .error .overrun ↔ ∃ i entry, w.ready i entry ∧
    entry.fd = w.server.listenfd ∧ input.conn ≠ none ∧ ¬w.server.fds.length < nConnections := by
  constructor
  · intro h
    rw [step] at h
    cases hscan : w.scan with
    | none =>
      simp only [hscan] at h
      cases hready : input.ready with
      | none => simp [hready] at h
      | some ready => simp [hready] at h
    | some i =>
      simp only [hscan] at h
      cases hentry : w.server.fds[i]? with
      | none => simp [hentry] at h
      | some entry =>
        simp only [hentry] at h
        by_cases hpollin : entry.pollin = true
        · have hready : w.ready i entry := ⟨hscan, hentry, hpollin⟩
          by_cases hlisten : entry.fd = w.server.listenfd
          · refine ⟨i, entry, hready, hlisten, ?_⟩
            simp only [hpollin, Bool.not_true, Bool.false_eq_true, if_false, hlisten, if_true] at h
            cases hconn : input.conn with
            | none =>
              rw [hconn] at h
              cases h
            | some fd =>
              refine ⟨Option.some_ne_none fd, fun hroom => ?_⟩
              simp only [hconn, handleNewConnection, hroom, if_true] at h
              cases h
          · have hclient : step w input = _ := step_client hready hlisten
            simp only [step, hscan, hentry, hpollin] at hclient
            simp only [hpollin] at h
            rw [hclient] at h
            cases hdata : handleClientData w.server i input.broken input.read with
            | error stop =>
              rw [hdata] at h
              have hstop : stop = .overrun := by simpa [Except.map] using h
              exact (handleClientData_ne_overrun (hstop ▸ hdata)).elim
            | ok result =>
              rw [hdata] at h
              cases h
        · simp [hpollin] at h
  · rintro ⟨i, entry, ⟨hscan, hentry, hpollin⟩, hlisten, hconn, hroom⟩
    obtain ⟨fd, hfd⟩ := Option.ne_none_iff_exists'.mp hconn
    simp only [step, hscan, hentry, hpollin, Bool.not_true, Bool.false_eq_true, if_false, hlisten, if_true,
      hfd, handleNewConnection, hroom]
    rfl

inductive Reaches (meets : World → Input → Prop) (listenfd : ℕ) : World → Prop
  | start : Reaches meets listenfd (start listenfd)
  | step {w w' : World} {input : Input} (h : Reaches meets listenfd w) (hkernel : Kernel w input)
    (hmeets : meets w input) (hstep : step w input = .ok w') : Reaches meets listenfd w'

def Right (w : World) : Prop := Tabled w ∧ w.server.nClients = w.users

lemma start_right (listenfd : ℕ) : Right (start listenfd) :=
  ⟨⟨Finset.notMem_empty _, [], rfl, List.nodup_nil, fun fd => by simp [start]⟩, rfl⟩

lemma right_iff (h : Right w) (hkernel : Kernel w input) : Meets w input ↔
    step w input ≠ .error .overrun ∧ ∀ w', step w input = .ok w' → Right w' := by
  obtain ⟨htable, hcount⟩ := h
  constructor
  · intro hmeets
    refine ⟨fun hoverrun => ?_, fun w' hstep => ?_⟩
    · obtain ⟨i, entry, hready, hentry, hconn, hfull⟩ := step_overrun.mp hoverrun
      exact hfull (hmeets.room i entry hready hentry hconn)
    · have hchange := step_change hstep
      exact ⟨htable.step hkernel hchange, (count_iff htable hkernel hcount hchange).mpr hmeets⟩
  · rintro ⟨hoverrun, hright⟩
    have hok : ∀ i entry, w.ready i entry → entry.fd ≠ w.server.listenfd →
        input.joins ∨ input.leaves → Meets w input := by
      intro i entry hready hentry hinput
      obtain ⟨result, hresult⟩ : ∃ result,
          handleClientData w.server i input.broken input.read = .ok result := handleClientData_isOk hinput
      have hstep : step w input = _ := step_client hready hentry
      rw [hresult] at hstep
      exact (count_iff htable hkernel hcount (step_change hstep)).mp (hright _ hstep).2
    refine ⟨?_, ?_, ?_⟩
    · intro i entry hready hentry hconn
      by_contra hfull
      exact hoverrun (step_overrun.mpr ⟨i, entry, hready, hentry, hconn, hfull⟩)
    · intro i entry hready hentry hjoins
      exact (hok i entry hready hentry (Or.inl hjoins)).first i entry hready hentry hjoins
    · intro i entry hready hentry hleaves
      exact (hok i entry hready hentry (Or.inr hleaves)).member i entry hready hentry hleaves

lemma Change.listenfd (h : Change w input w') : w'.server.listenfd = w.server.listenfd := by
  cases h <;> assumption

theorem users_counted {listenfd : ℕ} (h : Reaches Meets listenfd w) :
    w.server.listenfd = listenfd ∧ Right w ∧ ∀ input, Kernel w input → (Meets w input ↔
      step w input ≠ .error .overrun ∧ ∀ w', step w input = .ok w' → Right w') := by
  have hreached : w.server.listenfd = listenfd ∧ Right w := by
    induction h with
    | start => exact ⟨rfl, start_right listenfd⟩
    | step _ hkernel hmeets hstep ih =>
      exact ⟨(step_change hstep).listenfd.trans ih.1, ((right_iff ih.2 hkernel).mp hmeets).2 _ hstep⟩
  exact ⟨hreached.1, hreached.2, fun input hkernel => right_iff hreached.2 hkernel⟩

section Joining

def World.turn (w : World) : Option Pollfd :=
  (w.scan.bind fun i => w.server.fds[i]?).filter (·.pollin)

lemma turn_eq_some : w.turn = some entry ↔ ∃ i, w.ready i entry := by
  simp only [World.turn, World.ready, Option.filter_eq_some_iff, Option.bind_eq_some_iff]
  constructor
  · rintro ⟨⟨i, hi, hget⟩, hpollin⟩
    exact ⟨i, hi, hget, hpollin⟩
  · rintro ⟨i, hi, hget, hpollin⟩
    exact ⟨⟨i, hi, hget⟩, hpollin⟩

instance (input : Input) : Decidable input.joins := inferInstanceAs (Decidable (_ ∧ _))

instance (input : Input) : Decidable input.leaves := inferInstanceAs (Decidable (_ ∨ _ ∨ _ ∧ _))

instance (w : World) (input : Input) : Decidable (Kernel w input) :=
  inferInstanceAs (Decidable (∀ fd ∈ input.conn, fd ∉ w.sockets ∧ fd ≠ w.server.listenfd))

lemma meets_iff : Meets w input ↔ ∀ entry ∈ w.turn,
    (entry.fd = w.server.listenfd → input.conn ≠ none → w.server.fds.length < nConnections) ∧
      (entry.fd ≠ w.server.listenfd → input.joins → entry.fd ∉ w.joined) ∧
      (entry.fd ≠ w.server.listenfd → input.leaves → entry.fd ∈ w.joined ∨ w.server.nClients = 0) := by
  constructor
  · intro h entry hentry
    obtain ⟨i, hready⟩ := turn_eq_some.mp hentry
    exact ⟨h.room i entry hready, h.first i entry hready, h.member i entry hready⟩
  · intro h
    refine ⟨fun i entry hready => ?_, fun i entry hready => ?_, fun i entry hready => ?_⟩
    · exact (h entry (turn_eq_some.mpr ⟨i, hready⟩)).1
    · exact (h entry (turn_eq_some.mpr ⟨i, hready⟩)).2.1
    · exact (h entry (turn_eq_some.mpr ⟨i, hready⟩)).2.2

instance (w : World) (input : Input) : Decidable (Meets w input) := decidable_of_iff _ meets_iff.symm

def run (meets : World → Input → Prop) [∀ w input, Decidable (meets w input)] :
    World → List Input → Option World
  | w, [] => some w
  | w, input :: inputs =>
    if Kernel w input ∧ meets w input then
      match step w input with
      | .error _ => none
      | .ok w' => run meets w' inputs
    else none

lemma Reaches.run {meets : World → Input → Prop} [∀ w input, Decidable (meets w input)] {listenfd : ℕ}
    {inputs : List Input} (h : Reaches meets listenfd w) (hrun : Chat.run meets w inputs = some w') :
    Reaches meets listenfd w' := by
  induction inputs generalizing w with
  | nil =>
    obtain rfl := Option.some.inj hrun
    exact h
  | cons input inputs ih =>
    simp only [Chat.run] at hrun
    split_ifs at hrun with hmeets
    cases hs : Chat.step w input with
    | error stop =>
      rw [hs] at hrun
      cases hrun
    | ok next =>
      rw [hs] at hrun
      exact ih (h.step hmeets.1 hmeets.2 hs) hrun

def newUserMessage : Bytes := cleared []

def idle : Input := ⟨none, none, .error, false⟩

def connecting : List Input :=
  [{ idle with ready := some fun i => i == 0 }, { idle with conn := some 4 }, idle, idle]

def joining : List Input :=
  [{ idle with ready := some fun i => i == 1 }, idle, { idle with read := .data newUserMessage }, idle]

instance decidableAnyInput (w : World) (input : Input) : Decidable ((fun _ _ => True) w input) :=
  isTrue trivial

theorem users_counted_one : ∃ w : World, w.server.nClients = 1 ∧ Right w := by
  obtain ⟨w, hw⟩ : ∃ w, run Meets (start 3) (connecting ++ joining) = some w := ⟨_, rfl⟩
  obtain ⟨-, hright, -⟩ := users_counted (Reaches.start.run hw)
  obtain rfl := Option.some.inj hw
  exact ⟨_, rfl, hright⟩

theorem user_counted_twice :
    ¬∀ (listenfd : ℕ) (w : World), Reaches (fun _ _ => True) listenfd w → Right w := by
  intro hclaim
  obtain ⟨w, hw⟩ : ∃ w, run (fun _ _ => True) (start 3) (connecting ++ joining ++ joining) = some w :=
    ⟨_, rfl⟩
  have hright := hclaim 3 w (Reaches.start.run hw)
  obtain rfl := Option.some.inj hw
  exact absurd hright.2 (by decide)

end Joining

end SystemsLab.Chat
