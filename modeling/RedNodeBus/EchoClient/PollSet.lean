import RedNodeBus.EchoClient.Udp

/-!
# The poll set of the UDP echo client

`prepare_fds` appends the client's descriptor to `fds` each time `start` succeeds, and
nothing ever takes one out or resets `nfds`.  So `nfds` counts the successful starts
(`PollInv`), while the client has one descriptor open at a time: the set handed to
`poll` is exact before the second successful start and never after it, and the fifth
successful start writes behind the array (`pollSet_exact_iff`).
-/

namespace RedNodeBus.EchoClient

/-- What of the sockets a position of the thread tells: none is open; one is; one is,
and it is the last entry of `fds`; or it is being given up. -/
inductive Phase
  | closed
  | starting
  | running
  | leaving
  deriving DecidableEq, Repr

def ThreadAt.phase : ThreadAt → Phase
  | .semTake | .initRecv | .initTransmit | .socket => .closed
  | .connect | .startSend _ | .prepareFds => .starting
  | .test ret => if ret = 0 then .running else .leaving
  | .poll | .recv | .compare _ | .count | .cancelReply | .pace | .processSend _ => .running
  | .cancelRecv | .cancelTransmit | .close => .leaving

namespace UdpClient

variable {cfg : Config} {c c' : UdpClient}

/-! ## What is claimed of a step -/

/-- `fds[0..nfds)` -/
def pollSet (c : UdpClient) : List Int := (List.range c.nfds).map fun i => (c.fds i).fd

/-- `fds[0..nfds)` has the open descriptors, each once. -/
def Exact (c : UdpClient) : Prop := c.pollSet.Nodup ∧ ∀ fd, fd ∈ c.pollSet ↔ fd ∈ c.openSocks

instance (c : UdpClient) : Decidable c.Exact :=
  decidable_of_iff (c.pollSet.Nodup ∧ c.pollSet ⊆ c.openSocks ∧ c.openSocks ⊆ c.pollSet)
    (and_congr_right fun _ => ⟨fun h _ => ⟨fun hf => h.1 hf, fun hf => h.2 hf⟩,
      fun h => ⟨fun fd => (h fd).mp, fun fd => (h fd).mpr⟩⟩)

/-- If the step calls `poll`, the poll set is exact. -/
def PollExact (c : UdpClient) : Act → Prop
  | .client _ => c.thread = .poll → c.Exact
  | _ => True

/-- If the step is `prepare_fds`, it writes inside the array. -/
def WritesInBounds (c : UdpClient) : Act → Prop
  | .client _ => c.thread = .prepareFds → ∀ i ∈ c.prepareFdsWrites, i < 4
  | _ => True

instance (c : UdpClient) : (a : Act) → Decidable (c.PollExact a ∧ c.WritesInBounds a)
  | .client _ => inferInstanceAs (Decidable ((_ → c.Exact) ∧ (_ → ∀ i ∈ _, i < 4)))
  | .l4 _ | .event | .expire _ | .take | .work _ => isTrue ⟨trivial, trivial⟩

/-- `start` succeeds, or `wait` is called. -/
inductive Mark
  | started
  | waited
  deriving DecidableEq, Repr

def mark (c : UdpClient) : Act → Option Mark
  | .client _ =>
    match c.thread with
    | .prepareFds => some .started
    | .poll => some .waited
    | _ => none
  | _ => none

/-- What may follow the marks so far: a wait after no second start, and a start after
no fourth one. -/
def Due (marks : List Mark) : Mark → Prop
  | .waited => marks.count .started ≤ 1
  | .started => marks.count .started ≤ 3

/-! ## What a statement does to the sockets -/

/-- The same sockets and poll set. -/
structure SameSocks (c c' : UdpClient) : Prop where
  sock : c'.sock = c.sock
  tcpSock : c'.tcpSock = c.tcpSock
  fds : c'.fds = c.fds
  nfds : c'.nfds = c.nfds
  openSocks : c'.openSocks = c.openSocks

theorem sendUdpData_socks (cfg : Config) (o : Outcome) (pc : SendAt) (c : UdpClient) :
    SameSocks c (c.sendUdpData cfg o pc).2 ∧ (c.sendUdpData cfg o pc).2.thread = c.thread := by
  cases pc <;> exact ⟨⟨rfl, rfl, rfl, rfl, rfl⟩, rfl⟩

/-- **What a statement of the client thread does to the sockets.** -/
inductive SockMove (o : Outcome) (c c' : UdpClient) : Prop
  | stay (same : SameSocks c c') (not_prepareFds : c.thread ≠ .prepareFds)
      (phase : c'.thread.phase = c.thread.phase)
  | leave (same : SameSocks c c') (not_prepareFds : c.thread ≠ .prepareFds)
      (before : c.thread.phase = .starting ∨ c.thread.phase = .running)
      (after : c'.thread.phase = .leaving)
  | noSocket (at_socket : c.thread = .socket) (ret : o.ret < 0)
      (same : SameSocks { c with sock := o.ret } c') (after : c'.thread.phase = .leaving)
  | socket (at_socket : c.thread = .socket) (ret : 0 ≤ o.ret)
      (same : SameSocks { c with sock := o.ret, openSocks := o.ret :: c.openSocks } c')
      (after : c'.thread.phase = .starting)
  | prepareFds (at_prepareFds : c.thread = .prepareFds) (same : SameSocks c.prepareFds c')
      (after : c'.thread.phase = .running)
  | close (at_close : c.thread = .close)
      (same : SameSocks
        { c with openSocks := if c.sock ≥ 0 then c.openSocks.erase c.sock else c.openSocks } c')
      (after : c'.thread.phase = .closed)

theorem SameSocks.refl (c : UdpClient) : SameSocks c c := ⟨rfl, rfl, rfl, rfl, rfl⟩

theorem SockMove.within {o : Outcome} {pc pc' : ThreadAt} (ht : c.thread = pc)
    (hpc : pc ≠ .prepareFds) (hphase : pc'.phase = pc.phase) (same : SameSocks c c') :
    SockMove o c (c'.goto pc') :=
  .stay ⟨same.sock, same.tcpSock, same.fds, same.nfds, same.openSocks⟩ (ht ▸ hpc) (ht ▸ hphase)

/-- A call of `send_udp_data` comes back to a statement, or to the loop with an error. -/
theorem SockMove.leaveLoop {o : Outcome} {pc : ThreadAt} {ret : Int} (ht : c.thread = pc)
    (hpc : pc ≠ .prepareFds) (hphase : pc.phase = .starting ∨ pc.phase = .running)
    (hret : ret ≠ 0) (same : SameSocks c c') : SockMove o c (c'.goto (.test ret)) :=
  .leave ⟨same.sock, same.tcpSock, same.fds, same.nfds, same.openSocks⟩ (ht ▸ hpc)
    (ht ▸ hphase) (if_neg hret)

/-- `run` returns to the test of the inner loop. -/
theorem SockMove.afterProcessUdp {o : Outcome} {pc : ThreadAt} (ret : Int) (ht : c.thread = pc)
    (hpc : pc ≠ .prepareFds) (hphase : pc.phase = .running) (same : SameSocks c c') :
    SockMove o c (c'.afterProcessUdp ret) := by
  rw [UdpClient.afterProcessUdp]
  by_cases hret : ret < 0
  · rw [if_pos hret]
    exact .leaveLoop ht hpc (Or.inr hphase) (by omega) same
  · rw [if_neg hret]
    exact .within ht hpc (by rw [hphase]; rfl) same

theorem sock_move {o : Outcome} (h : c.startClient cfg o = some c') : SockMove o c c' := by
  cases client_step h with
  | semTake ht | initRecv ht | initTransmit ht | cancelRecv ht | cancelTransmit ht | count ht =>
    exact .within ht (by decide) rfl ⟨rfl, rfl, rfl, rfl, rfl⟩
  | noSocket ht failed hret =>
    exact .noSocket ht failed ⟨rfl, rfl, rfl, rfl, rfl⟩ (if_neg (Int.ne_of_lt hret))
  | socket ht opened => exact .socket ht opened ⟨rfl, rfl, rfl, rfl, rfl⟩ rfl
  | notConnected ht hret =>
    exact .leaveLoop ht (by decide) (Or.inl rfl) (Int.ne_of_lt hret) (.refl c)
  | connect ht => exact .within ht (by decide) rfl (.refl c)
  | @startSend pc _ _ ht sends =>
    have hs := (sendUdpData_socks cfg o pc c).1
    rw [sends] at hs
    exact .within ht ThreadAt.noConfusion rfl hs
  | @notStarted pc _ _ ht sends hret =>
    have hs := (sendUdpData_socks cfg o pc c).1
    rw [sends] at hs
    exact .leaveLoop ht ThreadAt.noConfusion (Or.inl rfl) (Int.ne_of_lt hret) hs
  | @started pc _ _ ht sends =>
    have hs := (sendUdpData_socks cfg o pc c).1
    rw [sends] at hs
    exact .within ht ThreadAt.noConfusion rfl hs
  | prepareFds ht => exact .prepareFds ht ⟨rfl, rfl, rfl, rfl, rfl⟩ rfl
  | goesOn ht | poll ht => exact .within ht (by decide) rfl (.refl c)
  | @leaves ret ht =>
    by_cases hret : ret = 0
    · subst hret
      exact .leave ⟨rfl, rfl, rfl, rfl, rfl⟩ (by rw [ht]; decide) (Or.inr (by rw [ht]; rfl)) rfl
    · exact .within ht ThreadAt.noConfusion (if_neg hret).symm (.refl c)
  | nothing ht => exact .afterProcessUdp _ ht (by decide) rfl (.refl c)
  | recv ht => exact .within ht (by decide) rfl (.refl c)
  | mismatch ht => exact .afterProcessUdp _ ht ThreadAt.noConfusion rfl (.refl c)
  | accepts ht => exact .within ht ThreadAt.noConfusion rfl (.refl c)
  | cancelReply ht next =>
    rcases next with rfl | rfl <;> exact .within ht (by decide) rfl ⟨rfl, rfl, rfl, rfl, rfl⟩
  | pace ht => exact .afterProcessUdp _ ht (by decide) rfl ⟨rfl, rfl, rfl, rfl, rfl⟩
  | @processSend pc _ _ ht sends =>
    have hs := (sendUdpData_socks cfg o pc c).1
    rw [sends] at hs
    exact .within ht ThreadAt.noConfusion rfl hs
  | @processed pc _ _ ht sends =>
    have hs := (sendUdpData_socks cfg o pc c).1
    rw [sends] at hs
    exact .afterProcessUdp _ ht ThreadAt.noConfusion rfl hs
  | close ht => exact .close ht ⟨rfl, rfl, rfl, rfl, rfl⟩ rfl

/-- A step of anything but the client thread leaves the sockets and the thread alone. -/
theorem other_socks {a : Act} (ha : ∀ o, a ≠ .client o) (h : step cfg c a = some c') :
    SameSocks c c' ∧ c'.thread = c.thread := by
  cases a with
  | client o => exact absurd rfl (ha o)
  | l4 _ | event =>
    obtain ⟨_, _, _, _, rfl⟩ := event_move (by simp) h
    exact ⟨⟨rfl, rfl, rfl, rfl, rfl⟩, rfl⟩
  | expire _ | take =>
    obtain ⟨works, -, rfl⟩ := Option.map_eq_some_iff.mp h
    exact ⟨⟨rfl, rfl, rfl, rfl, rfl⟩, rfl⟩
  | work o =>
    obtain ⟨hs, ht⟩ := sendUdpData_socks cfg o c.handler c
    obtain ⟨-, ⟨sends, rfl⟩ | ⟨sends, rfl⟩⟩ := handler_move h <;>
    · rw [sends] at hs ht
      exact ⟨⟨hs.sock, hs.tcpSock, hs.fds, hs.nfds, hs.openSocks⟩, ht⟩

theorem mark_other {a : Act} (ha : ∀ o, a ≠ .client o) : c.mark a = none := by
  cases a with
  | client o => exact absurd rfl (ha o)
  | l4 e | event | expire w | take | work o => rfl

/-! ## The invariant -/

/-- What the phase of the thread says of the sockets. -/
def SockPhase (c : UdpClient) : Phase → Prop
  | .closed => c.openSocks = []
  | .starting => 0 ≤ c.sock ∧ c.openSocks = [c.sock]
  | .running => 0 ≤ c.sock ∧ c.openSocks = [c.sock] ∧
      ∃ k, c.nfds = k + 1 ∧ (c.fds k).fd = c.sock
  | .leaving => c.openSocks = if c.sock ≥ 0 then [c.sock] else []

/-- `nfds` counts the successful starts, and the sockets are as the thread has left
them. -/
structure PollInv (marks : List Mark) (c : UdpClient) : Prop where
  nfds : c.nfds = marks.count .started
  tcpSock : c.tcpSock = invalidSock
  phase : c.SockPhase c.thread.phase

theorem SockPhase.congr {p : Phase} (h : c.SockPhase p) (same : SameSocks c c') :
    c'.SockPhase p := by
  obtain ⟨h₁, h₂, h₃, h₄, h₅⟩ := same
  cases p <;> simp only [SockPhase, h₁, h₃, h₄, h₅] at h ⊢ <;> exact h

theorem SockPhase.leaving {p : Phase} (h : c.SockPhase p) (hp : p = .starting ∨ p = .running) :
    c.SockPhase .leaving := by
  rcases hp with rfl | rfl
  · rw [SockPhase, if_pos h.1]
    exact h.2
  · rw [SockPhase, if_pos h.1]
    exact h.2.1

theorem pollInv_boot (cfg : Config) : PollInv [] (boot cfg) := ⟨rfl, rfl, rfl⟩

/-- With the TCP socket invalid, `prepare_fds` appends the UDP socket. -/
theorem prepareFds_eq (htcp : c.tcpSock = invalidSock) (hs : 0 ≤ c.sock) :
    c.prepareFds = c.addFd c.sock := by
  rw [prepareFds, if_pos hs, if_neg]
  simp [addFd, htcp, invalidSock]

theorem pollInv_step {marks : List Mark} {a : Act} (hI : PollInv marks c)
    (h : step cfg c a = some c') : PollInv (marks ++ (c.mark a).toList) c' := by
  cases a with
  | client o =>
    obtain ⟨hn, htcp, hp⟩ := hI
    have hcount : c.thread ≠ .prepareFds →
        (marks ++ (c.mark (.client o)).toList).count .started = marks.count .started := by
      intro hne
      rw [List.count_append, mark]
      split <;> simp_all
    cases sock_move h with
    | stay same hne hphase =>
      refine ⟨?_, same.tcpSock.trans htcp, hphase ▸ hp.congr same⟩
      rw [same.nfds, hn, hcount hne]
    | leave same hne hb ha =>
      refine ⟨?_, same.tcpSock.trans htcp, ha ▸ (hp.leaving hb).congr same⟩
      rw [same.nfds, hn, hcount hne]
    | noSocket hat hret same ha =>
      have hopen : c.openSocks = [] := by
        rw [hat] at hp
        exact hp
      refine ⟨?_, same.tcpSock.trans htcp, ?_⟩
      · rw [same.nfds, hcount (by simp [hat])]
        exact hn
      · rw [ha]
        refine SockPhase.congr ?_ same
        rw [SockPhase, if_neg (Int.not_le.mpr hret)]
        exact hopen
    | socket hat hret same ha =>
      have hopen : c.openSocks = [] := by
        rw [hat] at hp
        exact hp
      refine ⟨?_, same.tcpSock.trans htcp, ?_⟩
      · rw [same.nfds, hcount (by simp [hat])]
        exact hn
      · rw [ha]
        refine SockPhase.congr ?_ same
        exact ⟨hret, by rw [hopen]⟩
    | prepareFds hat same ha =>
      obtain ⟨hsock, hopen⟩ : c.SockPhase .starting := by
        rw [hat] at hp
        exact hp
      rw [prepareFds_eq htcp hsock] at same
      refine ⟨?_, same.tcpSock.trans htcp, ?_⟩
      · rw [same.nfds, List.count_append, mark, hat]
        simp [addFd, hn]
      · rw [ha]
        refine SockPhase.congr ?_ same
        exact ⟨hsock, hopen, c.nfds, rfl, by simp [addFd]⟩
    | close hat same ha =>
      have hopen : c.openSocks = if c.sock ≥ 0 then [c.sock] else [] := by
        rw [hat] at hp
        exact hp
      refine ⟨?_, same.tcpSock.trans htcp, ?_⟩
      · rw [same.nfds, hcount (by simp [hat])]
        exact hn
      · rw [ha]
        refine SockPhase.congr ?_ same
        show (if c.sock ≥ 0 then c.openSocks.erase c.sock else c.openSocks) = []
        rw [hopen]
        split <;> simp
  | l4 e | event | expire w | take | work o =>
    obtain ⟨same, ht⟩ := other_socks (by simp) h
    refine ⟨?_, same.tcpSock.trans hI.tcpSock, ht ▸ hI.phase.congr same⟩
    rw [same.nfds, hI.nfds, mark_other (by simp), Option.toList_none, List.append_nil]

/-! ## The set at `poll`, step by step and for runs -/

/-- At `poll` the set is exact as long as `start` has succeeded only once. -/
theorem pollExact_iff {marks : List Mark} (hI : PollInv marks c) (ht : c.thread = .poll) :
    c.Exact ↔ marks.count .started ≤ 1 := by
  obtain ⟨-, hopen, k, hk, hfd⟩ : c.SockPhase .running := by
    have hp := hI.phase
    rw [ht] at hp
    exact hp
  rw [← hI.nfds, Exact, hopen]
  constructor
  · rintro ⟨hnd, hmem⟩
    have hsub : c.pollSet ⊆ [c.sock] := fun fd h => (hmem fd).mp h
    have hlen := (hnd.subperm hsub).length_le
    rwa [pollSet, List.length_map, List.length_range] at hlen
  · intro hle
    obtain rfl : k = 0 := by omega
    have hset : c.pollSet = [c.sock] := by
      rw [pollSet, hk, List.range_one, List.map_singleton, hfd]
    rw [hset]
    exact ⟨List.nodup_singleton _, fun _ => Iff.rfl⟩

/-- `prepare_fds` writes inside the array as long as `start` has not succeeded four
times before. -/
theorem writesInBounds_iff {marks : List Mark} (hI : PollInv marks c)
    (ht : c.thread = .prepareFds) :
    (∀ i ∈ c.prepareFdsWrites, i < 4) ↔ marks.count .started ≤ 3 := by
  obtain ⟨hsock, -⟩ : c.SockPhase .starting := by
    have hp := hI.phase
    rw [ht] at hp
    exact hp
  have hnfds : (c.addFd c.sock).nfds - c.nfds = 1 := Nat.add_sub_cancel_left _ _
  rw [prepareFdsWrites, prepareFds_eq hI.tcpSock hsock, hnfds, ← hI.nfds]
  simp only [List.range'_one, List.mem_singleton, forall_eq]
  exact Nat.lt_succ_iff

/-- **The poll set is exact and the writes stay in the array exactly as long as `start`
succeeds once before a call of `poll`, and four times in all.** -/
theorem pollSet_exact_iff (cfg : Config) {as : List Act} {c : UdpClient}
    (hr : (machine cfg).run as = some c) :
    (machine cfg).Along (fun c a => c.PollExact a ∧ c.WritesInBounds a) (boot cfg) as ↔
      ∀ before m after, (machine cfg).observe mark (boot cfg) as = before ++ m :: after →
        Due before m := by
  refine Machine.along_iff_history (I := PollInv) (Q := Due)
    (fun _ _ _ _ hI _ hs => pollInv_step hI hs) (fun marks c a _ hI _ => ?_) (pollInv_boot cfg) hr
  cases a with
  | client o =>
    simp only [PollExact, WritesInBounds, mark]
    cases ht : c.thread with
    | poll => simp [Due, pollExact_iff hI ht]
    | prepareFds => simp [Due, writesInBounds_iff hI ht]
    | _ => simp
  | l4 e | event | expire w | take | work o => simp [PollExact, WritesInBounds, mark]

/-- A cycle up to the first call of `poll`, on descriptor `3`. -/
def startRun : List Act := networkUp ++ calls [0, 0, 0, 3, 0, 0, 0, 1, 0, 0, 0, 0]

theorem pollSet_exact_iff_startRun :
    (machine .short).Along (fun c a => c.PollExact a ∧ c.WritesInBounds a) (boot .short) startRun ↔
      ∀ before m after,
        (machine .short).observe mark (boot .short) startRun = before ++ m :: after →
          Due before m := by
  obtain ⟨c, hr⟩ := Option.isSome_iff_exists.mp
    (show ((machine .short).run startRun).isSome = true by decide +kernel)
  exact pollSet_exact_iff .short hr

/-- The peer closes, the network comes up again, and the client starts again: `poll` is
on the old descriptor and the new one. -/
def restartRun : List Act := startRun ++ calls [0, 0, 0, 0, 0] ++ startRun

theorem pollSet_stale :
    ¬ ∀ (as : List Act) (c : UdpClient), (machine .short).run as = some c →
      (machine .short).Along (fun c a => c.PollExact a ∧ c.WritesInBounds a)
        (boot .short) as := by
  intro h
  obtain ⟨c, hr⟩ := Option.isSome_iff_exists.mp
    (show ((machine .short).run restartRun).isSome = true by decide +kernel)
  exact absurd (h restartRun c hr) (by decide)

end UdpClient

end RedNodeBus.EchoClient
