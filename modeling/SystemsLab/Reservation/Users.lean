import SystemsLab.Reservation.Descriptors
import Mathlib.Data.List.Nodup

namespace SystemsLab.Reservation

open CLib Threads

def usernames (users : List User) : List Bytes := users.map fun u => u.username

def flagOf (users : List User) (name : Bytes) : Option Bool :=
  (users.find? fun u => u.username == name).map fun u => u.loggedIn

section Flags

variable {users : List User} {name : Bytes}

lemma lookup_none (h : findUser users name = none) :
    users.find? (fun u => u.username == name) = none := by
  rw [List.find?_eq_none]
  intro u hu
  simpa using findUser_none h u hu

lemma lookup_eq (hn : (usernames users).Nodup) {u : User} (hu : u ∈ users) :
    users.find? (fun v => v.username == u.username) = some u := by
  cases hf : users.find? fun v => v.username == u.username with
  | none =>
    have hne := List.find?_eq_none.mp hf u hu
    simp at hne
  | some v =>
    have hv : v.username = u.username := by simpa using List.find?_some hf
    rw [List.inj_on_of_nodup_map hn (List.mem_of_find?_eq_some hf) hu hv]

lemma lookup_append (h : findUser users name = none) {u : User} (hu : u.username = name)
    (other : Bytes) : (users ++ [u]).find? (fun v => v.username == other) =
      if other = name then some u else users.find? fun v => v.username == other := by
  rw [List.find?_append]
  split_ifs with ho
  · subst ho
    rw [lookup_none h, Option.none_or, List.find?_singleton, if_pos (beq_iff_eq.mpr hu)]
  · have hne : ¬ (u.username == other) = true := by
      rw [beq_iff_eq, hu]
      exact Ne.symm ho
    rw [List.find?_singleton, if_neg hne, Option.or_none]

lemma flagOf_of_findUser (h : findUser users name = none) : flagOf users name = none := by
  rw [flagOf, lookup_none h, Option.map_none]

lemma flagOf_eq_some (hn : (usernames users).Nodup) {b : Bool} :
    flagOf users name = some b ↔ ∃ (uid : ℕ) (u : User),
      users[uid]? = some u ∧ u.username = name ∧ u.loggedIn = b := by
  constructor
  · intro h
    obtain ⟨u, hu, hb⟩ := Option.map_eq_some_iff.mp h
    obtain ⟨uid, huid⟩ := List.mem_iff_getElem?.mp (List.mem_of_find?_eq_some hu)
    exact ⟨uid, u, huid, by simpa using List.find?_some hu, hb⟩
  · rintro ⟨uid, u, hu, rfl, hb⟩
    rw [flagOf, lookup_eq hn (List.mem_of_getElem? hu), Option.map_some, hb]

lemma named_unique (hn : (usernames users).Nodup) {i j : ℕ} {u v : User} (hu : users[i]? = some u)
    (hv : users[j]? = some v) (h : u.username = v.username) : i = j := by
  have hi : (usernames users)[i]? = some u.username := by simp [usernames, hu]
  have hj : (usernames users)[j]? = some u.username := by simp [usernames, hv, h]
  obtain ⟨hlt, -⟩ := List.getElem?_eq_some_iff.mp hi
  exact (List.getElem?_inj hlt hn).mp (hi.trans hj.symm)

lemma usernames_append (h : findUser users name = none) (hn : (usernames users).Nodup)
    (hashed : Bytes) : (usernames (users ++ [⟨name, hashed, false⟩])).Nodup := by
  have hnot : name ∉ usernames users := by
    intro hin
    obtain ⟨u, hu, he⟩ := List.mem_map.mp hin
    exact findUser_none h u hu he
  rw [usernames, List.map_append]
  exact hn.append (List.nodup_singleton name) (by simpa using hnot)

lemma flagOf_append (h : findUser users name = none) (hashed : Bytes) :
    flagOf (users ++ [⟨name, hashed, false⟩]) = Function.update (flagOf users) name (some false) := by
  funext other
  rw [flagOf, lookup_append h rfl, Function.update_apply]
  split_ifs
  · rfl
  · rfl

end Flags

lemma usernames_setLoggedIn (d : Data) (uid : ℕ) (b : Bool) :
    usernames (d.setLoggedIn uid b).users = usernames d.users := by
  refine List.ext_getElem? fun i => ?_
  simp only [usernames, List.getElem?_map, Data.getElem?_setLoggedIn, Option.map_map]
  congr 1
  funext u
  by_cases hi : uid = i <;> simp [hi]

lemma flagOf_setLoggedIn {d : Data} {uid : ℕ} {name : Bytes} (hn : (usernames d.users).Nodup)
    (h : Named d uid name) (b : Bool) :
    flagOf (d.setLoggedIn uid b).users = Function.update (flagOf d.users) name (some b) := by
  obtain ⟨u, hu, rfl⟩ := h
  have hn' : (usernames (d.setLoggedIn uid b).users).Nodup := by rwa [usernames_setLoggedIn]
  funext other
  by_cases ho : other = u.username
  · subst other
    rw [Function.update_self, flagOf_eq_some hn']
    exact ⟨uid, { u with loggedIn := b }, by simp [Data.getElem?_setLoggedIn, hu], rfl, rfl⟩
  · rw [Function.update_of_ne ho]
    refine Option.ext fun x => ?_
    rw [flagOf_eq_some hn, flagOf_eq_some hn']
    refine exists_congr fun i => ?_
    rw [Data.getElem?_setLoggedIn]
    by_cases hi : uid = i
    · subst i
      simp [hu, Ne.symm ho]
    · simp [hi]

inductive UsersStep (d d' : Data) : Prop
  | same (h : d'.users = d.users)
  | add (name hashed : Bytes) (hn : findUser d.users name = none)
      (h : d'.users = d.users ++ [⟨name, hashed, false⟩])
  | flag (uid : ℕ) (b : Bool) (h : d'.users = (d.setLoggedIn uid b).users)

lemma UsersStep.nodup {d d' : Data} (h : UsersStep d d') (hn : (usernames d.users).Nodup) :
    (usernames d'.users).Nodup := by
  cases h with
  | same h => rwa [h]
  | add name hashed hno h =>
    rw [h]
    exact usernames_append hno hn hashed
  | flag uid b h => rwa [h, usernames_setLoggedIn]

lemma WorkerStep.users {C : Config} {w : ℕ} {o : Oracle} {d d' : Data} {pc pc' : Pc}
    (h : WorkerStep C w o d pc d' pc') : UsersStep d d' := by
  cases h with
  | handler h =>
    cases h with
    | create hu => exact .add _ _ hu rfl
    | verify | logout | newLockUser => exact .flag _ _ rfl
    | _ => exact .same rfl
  | remove h =>
    cases h with
    | unlockArray => exact .flag _ _ rfl
    | _ => exact .same rfl
  | _ => exact .same rfl

lemma MainStep.users {d d' : Data} {p p' : MainPoint} (h : MainStep d d' p p') :
    d'.users = d.users := by
  cases h with
  | accept _ hd | pass hd | give _ hd | drop hd =>
    subst hd
    rfl

lemma Reachable.usernames {C : Config} {s : Server C} (hs : Reachable C s) :
    (usernames s.data.users).Nodup := by
  refine Program.Reachable.invariant (fun a : Server C => (Reservation.usernames a.data.users).Nodup)
    hs List.nodup_nil fun a b t o _ hn he => ?_
  cases t with
  | main =>
    obtain ⟨p, d', p', _, hc, rfl, _⟩ := main_step he
    rwa [hc.users]
  | worker w =>
    obtain ⟨d', pc', hc, rfl, _⟩ := worker_step he
    exact (workerCode_step hc).users.nodup hn

end SystemsLab.Reservation
