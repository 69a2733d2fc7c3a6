import WpaSupplicant.EapWsc.Fragments

namespace WpaSupplicant.EapWsc

open Lib.Octets Lib.Machine

section RoundTrip

variable {opCode : UInt8} {data : Data} {msg : Octets} {u : ℕ}

structure Sendable (data : Data) (opCode : UInt8) (msg : Octets) : Prop where
  opCode : IsMsgOpCode opCode
  size : 5 ≤ data.fragmentSize
  length : msg.length ≤ 65535
  fits : Fits data.fragmentSize msg

theorem next_packet (hs : Sendable data opCode msg) (hdata : Sending data opCode msg u)
    (code id : UInt8) :
    (nextFragment data msg = (0, msg.length - u) ∧
      parsePacket (eapMsg code id (fragmentPayload data msg)) = some ⟨opCode, 0, 0, msg.drop u⟩) ∨
    ∃ flags n p, nextFragment data msg = (flags, n) ∧ 0 < n ∧ u + n < msg.length ∧
      parsePacket (eapMsg code id (fragmentPayload data msg)) = some p ∧ p.opCode = opCode ∧
      p.data = (msg.drop u).take n ∧ p.flags &&& flagsMf ≠ 0 ∧
      (u = 0 → p.flags &&& flagsLf ≠ 0 ∧ p.messageLength = msg.length) := by
  have hsize := hs.size
  have hmf : (flagsMf ||| flagsLf) &&& flagsMf ≠ 0 := by decide
  have hlf : (flagsMf ||| flagsLf) &&& flagsLf ≠ 0 := by decide
  have hmf' : flagsMf &&& flagsMf ≠ 0 := by decide
  rcases nextFragment_cases msg hdata.outUsed with ⟨hle, hf⟩ | ⟨hmore, rfl, hf⟩ | ⟨hmore, hu, hf⟩
  · exact .inl ⟨hf, parsePacket_last hdata hf hs.fits hle⟩
  · right
    refine ⟨_, _, _, hf, by omega, by omega,
      parsePacket_first hdata hf hs.fits hs.length hsize (by omega), rfl, by simp, hmf,
      fun _ => ⟨hlf, rfl⟩⟩
  · right
    exact ⟨_, _, _, hf, by omega, by omega, parsePacket_middle hdata hf hs.fits hsize hmore, rfl, rfl,
      hmf', fun h => absurd h hu⟩

def Allocates (env : ℕ → Env) : Prop := ∀ k, (env k).allocIn = true ∧ (env k).allocMsg = true

theorem Allocates.tail {env : ℕ → Env} (h : Allocates env) : Allocates fun k => env (k + 1) :=
  fun k => h (k + 1)

theorem toPeer_eq (fuel : ℕ) : ∀ (env : ℕ → Env) (ids : ℕ → UInt8) (server peer : Data) (u : ℕ),
    Allocates env → Sendable server opCode msg → Sending server opCode msg u →
    server.state = .mesg → server.extRegTimeout = false → peer.state = .mesg →
    Arrived peer opCode msg u → u ≤ msg.length → msg.length - u < fuel →
    toPeer fuel env ids server peer = [(opCode, msg)] := by
  induction fuel with
  | zero =>
    intro env ids server peer u _ _ _ _ _ _ _ _ hfuel
    exact absurd hfuel (Nat.not_lt_zero _)
  | succ fuel ih =>
    intro env ids server peer u henv hs hdata hserver htimeout hpeer harrived hu hfuel
    obtain ⟨hin, hout⟩ := henv 0
    unfold toPeer
    rw [buildReq_mesg hserver hdata]
    rcases next_packet hs hdata eapCodeRequest (ids 0) with
      ⟨hf, hparse⟩ | ⟨flags, n, p, hf, hn, hun, hparse, hpop, hd, hmf, hfirst⟩
    · rw [buildMsg_last hdata hu hout hf]
      simp only [Bool.false_eq_true, if_false]
      rw [peer_last hpeer hs.opCode harrived hu hparse]
      simp [sentState]
    rw [buildMsg_more hdata hout hf hun]
    simp only [Bool.false_eq_true, if_false]
    obtain ⟨hcalls, hresp, hnext⟩ := peer_more hpeer hs.opCode harrived hun.le hparse hpop hd hmf hfirst
      hin hout
    rw [hcalls, hresp, hnext]
    simp only [List.nil_append, if_true]
    have hack : (Server.process (env 0) { server with outUsed := u + n, state := .waitFragAck }
        (eapMsg eapCodeResponse (eapGetId (eapMsg eapCodeRequest (ids 0) (fragmentPayload server msg)))
          [wscFragAck, 0])).1 = { server with outUsed := u + n, state := .mesg } :=
      server_fragAck htimeout rfl
    rw [hack]
    refine ih _ _ _ _ (u + n) henv.tail ⟨hs.opCode, hs.size, hs.length, hs.fits⟩
      ⟨hdata.outBuf, hdata.outOpCode, rfl⟩ rfl htimeout hpeer ?_ hun.le (by omega)
    unfold Arrived
    rw [if_neg (by omega)]
    exact ⟨rfl, rfl⟩

theorem toServer_eq (fuel : ℕ) : ∀ (env : ℕ → Env) (ids : ℕ → UInt8) (server peer : Data) (u : ℕ)
    (env₀ : Env) (id : UInt8), Allocates env → env₀.allocMsg = true → Sendable peer opCode msg →
    Sending peer opCode msg u → server.state ≠ .waitFragAck → server.extRegTimeout = false →
    Arrived server opCode msg u → u ≤ msg.length → msg.length - u < fuel →
    toServer fuel env ids server (buildMsg true env₀ peer id).1
      ((buildMsg true env₀ peer id).2.getD []) = [(opCode, msg)] := by
  induction fuel with
  | zero =>
    intro env ids server peer u env₀ id _ _ _ _ _ _ _ _ hfuel
    exact absurd hfuel (Nat.not_lt_zero _)
  | succ fuel ih =>
    intro env ids server peer u env₀ id henv hout₀ hs hdata hserver htimeout harrived hu hfuel
    obtain ⟨hin, hout⟩ := henv 0
    rcases next_packet hs hdata eapCodeResponse id with
      ⟨hf, hparse⟩ | ⟨flags, n, p, hf, hn, hun, hparse, hpop, hd, hmf, hfirst⟩
    · rw [buildMsg_last hdata hu hout₀ hf]
      simp only [if_true, Option.getD_some]
      have hsent : ¬sentState true peer = .waitFragAck := by
        unfold sentState
        split <;> simp
      simp only [toServer, server_last htimeout hserver hs.opCode harrived hu hparse, if_neg hsent,
        List.append_nil]
    · obtain ⟨hcalls, hnext⟩ := server_more htimeout hserver hs.opCode harrived hun.le hparse hpop hd
        hmf hfirst hin
      obtain ⟨hpeer, hresp⟩ := peer_fragAck (env 0) eapCodeRequest (ids 0)
        (show ({ peer with outUsed := u + n, state := .waitFragAck } : Data).state = .waitFragAck from rfl)
      rw [buildMsg_more hdata hout₀ hf hun]
      simp only [if_true, Option.getD_some, toServer, hcalls, hnext, Server.buildReq, buildFragAck, hout,
        List.nil_append, hpeer, hresp]
      have hsending : Sending { peer with outUsed := u + n, state := .mesg } opCode msg (u + n) :=
        ⟨hdata.outBuf, hdata.outOpCode, rfl⟩
      have harrived' : Arrived { server with
          inBuf := some ⟨msg.length, msg.take (u + n)⟩, inOpCode := opCode, state := .fragAck }
          opCode msg (u + n) := by
        unfold Arrived
        rw [if_neg (by omega)]
        exact ⟨rfl, rfl⟩
      have hrest := ih (fun k => env (k + 1)) (fun k => ids (k + 1))
        { server with inBuf := some ⟨msg.length, msg.take (u + n)⟩, inOpCode := opCode, state := .fragAck }
        { peer with outUsed := u + n, state := .mesg } (u + n) (env 0) (ids 0) henv.tail hout
        ⟨hs.opCode, hs.size, hs.length, hs.fits⟩ hsending (by simp) htimeout harrived' hun.le (by omega)
      obtain ⟨out, hsome⟩ : ∃ out, (buildMsg true (env 0)
        { peer with outUsed := u + n, state := .mesg } (ids 0)).2 = some out :=
          buildMsg_isSome hsending hout
      rw [hsome] at hrest ⊢
      exact hrest

end RoundTrip

section Receive

variable {data data' : Data} {env : Env} {p : Packet} {calls : List Call} {s : Receiver}

inductive Received (data : Data) (p : Packet) (data' : Data) (calls : List Call) : Prop where
  | stay (hbuf : data'.inBuf = data.inBuf) (hop : data'.inOpCode = data.inOpCode) (hcalls : calls = [])
  | first (hnone : data.inBuf = none) (hlf : p.flags &&& flagsLf ≠ 0)
      (hbuf : data'.inBuf = some ⟨p.messageLength, p.data⟩) (hop : data'.inOpCode = p.opCode)
      (hcalls : calls = [.alloc p.messageLength, .put p.opCode p.data])
  | more (b : Wpabuf) (hsome : data.inBuf = some b) (hsame : p.opCode = data.inOpCode)
      (hroom : p.data.length ≤ b.tailroom) (hbuf : data'.inBuf = some (b.putData p.data))
      (hop : data'.inOpCode = data.inOpCode) (hcalls : calls = [.put p.opCode p.data])
  | whole (hnone : data.inBuf = none) (hbuf : data'.inBuf = none)
      (hcalls : calls = [.processMsg p.opCode p.data])
  | last (b : Wpabuf) (hsome : data.inBuf = some b) (hsame : p.opCode = data.inOpCode)
      (hroom : p.data.length ≤ b.tailroom) (hbuf : data'.inBuf = none)
      (hcalls : calls = [.put p.opCode p.data, .processMsg p.opCode (b.used ++ p.data)])

theorem Received.withState (h : Received data p data' calls) (state : State) :
    Received data p { data' with state := state } calls := by
  cases h with
  | stay hbuf hop hcalls => exact .stay hbuf hop hcalls
  | first hnone hlf hbuf hop hcalls => exact .first hnone hlf hbuf hop hcalls
  | more b hsome hsame hroom hbuf hop hcalls => exact .more b hsome hsame hroom hbuf hop hcalls
  | whole hnone hbuf hcalls => exact .whole hnone hbuf hcalls
  | last b hsome hsame hroom hbuf hcalls => exact .last b hsome hsame hroom hbuf hcalls

theorem buildMsg_inBuf {peer : Bool} {id : UInt8} :
    (buildMsg peer env data id).1.inBuf = data.inBuf ∧
      (buildMsg peer env data id).1.inOpCode = data.inOpCode := by
  unfold buildMsg
  split
  · exact ⟨rfl, rfl⟩
  split
  · exact ⟨rfl, rfl⟩
  · dsimp only
    split <;> exact ⟨rfl, rfl⟩

theorem loadMsg_inBuf (h : loadMsg env data = some data') :
    data'.inBuf = data.inBuf ∧ data'.inOpCode = data.inOpCode := by
  unfold loadMsg at h
  split at h
  · cases h
    exact ⟨rfl, rfl⟩
  · obtain ⟨m, -, rfl⟩ := Option.map_eq_some_iff.mp h
    exact ⟨rfl, rfl⟩

theorem sendMsg_inBuf {id : UInt8} :
    (Peer.sendMsg env data id calls).data.inBuf = data.inBuf ∧
      (Peer.sendMsg env data id calls).data.inOpCode = data.inOpCode := by
  unfold Peer.sendMsg
  split
  · exact ⟨rfl, rfl⟩
  rename_i d hload
  obtain ⟨hbuf, hop⟩ := loadMsg_inBuf hload
  obtain ⟨hbuf', hop'⟩ : (buildMsg true env { d with state := .mesg } id).1.inBuf = d.inBuf ∧
    (buildMsg true env { d with state := .mesg } id).1.inOpCode = d.inOpCode := buildMsg_inBuf
  exact ⟨hbuf'.trans hbuf, hop'.trans hop⟩

theorem processPending_cases (h : processPending data p = .ok (data', calls)) :
    (data.inBuf = none ∧ data' = data ∧ calls = []) ∨
    ∃ b, data.inBuf = some b ∧ p.opCode = data.inOpCode ∧ p.data.length ≤ b.tailroom ∧
      data' = { data with inBuf := some (b.putData p.data) } ∧ calls = [.put p.opCode p.data] := by
  unfold processPending at h
  split at h
  · rename_i hnone
    cases h
    exact .inl ⟨hnone, rfl, rfl⟩
  rename_i b hsome
  unfold processCont at h
  split at h
  · cases h
  rename_i hop
  split at h
  · cases h
  rename_i hroom
  cases h
  exact .inr ⟨b, hsome, not_not.mp hop, Nat.le_of_not_lt hroom, rfl, rfl⟩

theorem received_fragment {data₁ : Data} {calls' : List Call}
    (hpending : processPending data p = .ok (data₁, calls))
    (hfragment : processFragment env data₁ p = some (data', calls')) :
    Received data p data' (calls ++ calls') := by
  rcases processPending_cases hpending with ⟨hnone, rfl, rfl⟩ | ⟨b, hsome, hop, hroom, rfl, rfl⟩
  · simp only [processFragment, hnone] at hfragment
    split at hfragment
    · cases hfragment
    rename_i hlf
    split at hfragment
    · cases hfragment
    · cases hfragment
      exact .first hnone hlf rfl rfl rfl
  · simp only [processFragment] at hfragment
    cases hfragment
    exact .more b hsome hop hroom rfl rfl rfl

theorem received_none {data₁ : Data} (hpending : processPending data p = .ok (data₁, calls))
    (hfragment : processFragment env data₁ p = none) : calls = [] ∧ data₁ = data := by
  rcases processPending_cases hpending with ⟨hnone, rfl, rfl⟩ | ⟨b, hsome, hop, hroom, rfl, rfl⟩
  · exact ⟨rfl, rfl⟩
  · simp [processFragment] at hfragment

theorem received_last {data₁ : Data} (hpending : processPending data p = .ok (data₁, calls))
    (hbuf : data'.inBuf = none) :
    Received data p data' (calls ++ [.processMsg p.opCode (completeMsg data₁ p)]) := by
  rcases processPending_cases hpending with ⟨hnone, rfl, rfl⟩ | ⟨b, hsome, hop, hroom, rfl, rfl⟩
  · refine .whole hnone hbuf ?_
    simp [completeMsg, hnone]
  · refine .last b hsome hop hroom hbuf ?_
    simp [completeMsg, Wpabuf.putData]

theorem peer_received {req : Octets} (hparse : parsePacket req = some p) :
    Received data p (Peer.process env data req).data (Peer.process env data req).calls := by
  unfold Peer.process
  simp only [hparse]
  split
  · split
    · exact .stay rfl rfl rfl
    · exact .stay buildMsg_inBuf.1 buildMsg_inBuf.2 rfl
  split
  · exact .stay rfl rfl rfl
  split
  · split
    · exact .stay rfl rfl rfl
    · exact .stay sendMsg_inBuf.1 sendMsg_inBuf.2 peer_sendMsg_calls
  split
  · exact .stay rfl rfl rfl
  unfold Peer.processMessage
  split
  · dsimp only
    split <;> exact .stay rfl rfl rfl
  rename_i hpending
  split
  · split
    · rename_i hfragment
      obtain ⟨rfl, rfl⟩ := received_none hpending hfragment
      exact .stay rfl rfl rfl
    · rename_i hfragment
      exact received_fragment hpending hfragment
  · rw [peer_sendMsg_calls]
    exact received_last hpending sendMsg_inBuf.1

theorem server_received {resp : Octets} (hparse : parsePacket resp = some p) :
    Received data p (Server.process env data resp).1 (Server.process env data resp).2 := by
  unfold Server.process
  simp only [hparse]
  split
  · exact .stay rfl rfl rfl
  split
  · split <;> exact .stay rfl rfl rfl
  split
  · exact .stay rfl rfl rfl
  unfold Server.processMessage
  split
  · exact .stay rfl rfl rfl
  rename_i hpending
  split
  · split
    · rename_i hfragment
      obtain ⟨rfl, rfl⟩ := received_none hpending hfragment
      exact .stay rfl rfl rfl
    · rename_i hfragment
      exact (received_fragment hpending hfragment).withState _
  · exact received_last hpending rfl

def joined (parts : List Packet) : Octets := parts.flatMap Packet.data

-- The buffer is filled with what the packets had, all of one op-code, and no more than the first one
-- announced.
structure ReceiverInv (s : Receiver) : Prop where
  empty : s.data.inBuf = none → s.parts = []
  filled : ∀ b, s.data.inBuf = some b → ∃ q rest, s.parts = q :: rest ∧ q.flags &&& flagsLf ≠ 0 ∧
    b.size = q.messageLength ∧ b.used = joined s.parts ∧ b.used.length ≤ b.size ∧
    ∀ x ∈ s.parts, x.opCode = s.data.inOpCode

theorem parsePacket_length {msg : Octets} (h : parsePacket msg = some p) (hlf : p.flags &&& flagsLf ≠ 0) :
    p.data.length ≤ p.messageLength := by
  unfold parsePacket at h
  split at h
  · split at h
    · split at h
      · cases h
      split at h
      · cases h
      rename_i hlen
      cases h
      exact Nat.le_of_not_lt hlen
    · rename_i hno
      cases h
      exact absurd hlf hno
  · cases h

theorem ReceiverInv.received {msg : Octets} (hinv : ReceiverInv s) (hparse : parsePacket msg = some p)
    (h : Received s.data p data' calls) :
    ReceiverInv ⟨data', partsAfter s.parts (some p) data' calls⟩ := by
  cases h with
  | stay hbuf hop hcalls =>
    subst hcalls
    refine ⟨fun hnone => ?_, fun b hsome => ?_⟩
    · have hnone' : data'.inBuf = none := hnone
      simp only [partsAfter, hnone']
    · have hsome' : data'.inBuf = some b := hsome
      obtain ⟨q, rest, hparts, hlf, hsize, hused, hle, hops⟩ := hinv.filled b (hbuf ▸ hsome')
      have hafter : partsAfter s.parts (some p) data' [] = s.parts := by
        simp [partsAfter, hsome']
      simp only [hafter, hop]
      exact ⟨q, rest, hparts, hlf, hsize, hused, hle, hops⟩
  | first hnone hlf hbuf hop hcalls =>
    have hparts := hinv.empty hnone
    have hafter : partsAfter s.parts (some p) data' calls = [p] := by
      simp [partsAfter, hbuf, hcalls, Call.isPut, hparts]
    refine ⟨fun hnone' => ?_, fun b hsome => ?_⟩
    · rw [hbuf] at hnone'
      cases hnone'
    · rw [hbuf] at hsome
      cases hsome
      simp only [hafter]
      refine ⟨p, [], rfl, hlf, rfl, by simp [joined], parsePacket_length hparse hlf, ?_⟩
      simp [hop]
  | more b₀ hsome₀ hsame hroom hbuf hop hcalls =>
    obtain ⟨q, rest, hparts, hlf, hsize, hused, hle, hops⟩ := hinv.filled b₀ hsome₀
    have hafter : partsAfter s.parts (some p) data' calls = s.parts ++ [p] := by
      simp [partsAfter, hbuf, hcalls, Call.isPut]
    refine ⟨fun hnone' => ?_, fun b hsome => ?_⟩
    · rw [hbuf] at hnone'
      cases hnone'
    · rw [hbuf] at hsome
      cases hsome
      simp only [hafter]
      refine ⟨q, rest ++ [p], by simp [hparts], hlf, hsize, ?_, ?_, ?_⟩
      · simp [Wpabuf.putData, hused, joined]
      · simp only [Wpabuf.putData, List.length_append, Wpabuf.tailroom] at hroom ⊢
        omega
      · intro x hx
        rw [hop]
        rcases List.mem_append.mp hx with hx | hx
        · exact hops x hx
        · rw [List.mem_singleton.mp hx]
          exact hsame
  | whole hnone hbuf hcalls | last b hsome hsame hroom hbuf hcalls =>
    exact ⟨fun _ => by simp [partsAfter, hbuf], by simp [hbuf]⟩

-- What a receiver stores is no more than the first packet of the message has announced.
def Bounded (s : Receiver) : Prop :=
  ∀ b, s.data.inBuf = some b → ∃ q rest, s.parts = q :: rest ∧ q.flags &&& flagsLf ≠ 0 ∧
    b.used = joined s.parts ∧ b.used.length ≤ q.messageLength

def OneOpCode (s : Receiver) (p : Option Packet) (calls : List Call) : Prop :=
  (handed calls).length ≤ 1 ∧
  ∀ x ∈ handed calls, x.2 = joined (s.parts ++ p.toList) ∧
    (∀ q ∈ s.parts ++ p.toList, q.opCode = x.1) ∧
    ∀ q rest, s.parts = q :: rest → x.2.length ≤ q.messageLength

theorem ReceiverInv.bounded (h : ReceiverInv s) : Bounded s := by
  intro b hsome
  obtain ⟨q, rest, hparts, hlf, hsize, hused, hle, -⟩ := h.filled b hsome
  exact ⟨q, rest, hparts, hlf, hused, hsize ▸ hle⟩

theorem ReceiverInv.oneOpCode (hinv : ReceiverInv s) (h : Received s.data p data' calls) :
    OneOpCode s (some p) calls := by
  cases h with
  | stay hbuf hop hcalls | first hnone hlf hbuf hop hcalls | more b hsome hsame hroom hbuf hop hcalls =>
    simp [OneOpCode, hcalls, handed]
  | whole hnone hbuf hcalls =>
    have hparts := hinv.empty hnone
    refine ⟨by simp [hcalls, handed], fun x hx => ?_⟩
    simp only [hcalls, handed, List.mem_singleton] at hx
    subst hx
    simp [hparts, joined]
  | last b hsome hsame hroom hbuf hcalls =>
    obtain ⟨q, rest, hparts, hlf, hsize, hused, hle, hops⟩ := hinv.filled b hsome
    refine ⟨by simp [hcalls, handed], fun x hx => ?_⟩
    simp only [hcalls, handed, List.mem_singleton] at hx
    subst hx
    refine ⟨by simp [hused, joined], fun y hy => ?_, fun q' rest' heq => ?_⟩
    · rcases List.mem_append.mp hy with hy | hy
      · exact (hops y hy).trans hsame.symm
      · simp only [Option.toList_some, List.mem_singleton] at hy
        rw [hy]
    · rw [hparts] at heq
      cases heq
      simp only [List.length_append, Wpabuf.tailroom] at hroom ⊢
      omega

theorem ReceiverInv.unchanged (hinv : ReceiverInv s) (hbuf : data'.inBuf = s.data.inBuf)
    (hop : data'.inOpCode = s.data.inOpCode) : ReceiverInv ⟨data', partsAfter s.parts none data' []⟩ := by
  refine ⟨fun hnone => ?_, fun b hsome => ?_⟩
  · have hnone' : data'.inBuf = none := hnone
    simp only [partsAfter, hnone']
  · have hsome' : data'.inBuf = some b := hsome
    have hafter : partsAfter s.parts none data' [] = s.parts := by simp [partsAfter, hsome']
    simp only [hafter, hop]
    exact hinv.filled b (hbuf ▸ hsome')

theorem receiverInv_peer (op : Env × Octets) (hinv : ReceiverInv s) : ReceiverInv (s.peerExec op) := by
  unfold Receiver.peerExec
  cases hparse : parsePacket op.2 with
  | some p => exact hinv.received hparse (peer_received hparse)
  | none =>
    have heq : Peer.process op.1 s.data op.2 = { data := s.data, ignore := true } := by
      simp only [Peer.process, hparse]
    simp only [heq]
    exact hinv.unchanged rfl rfl

theorem receiverInv_server (op : ServerOp) (hinv : ReceiverInv s) : ReceiverInv (s.serverExec op) := by
  cases op with
  | process env resp =>
    simp only [Receiver.serverExec]
    cases hparse : parsePacket resp with
    | some p => exact hinv.received hparse (server_received hparse)
    | none =>
      have heq : (Server.process env s.data resp).2 = [] ∧
          (Server.process env s.data resp).1.inBuf = s.data.inBuf ∧
          (Server.process env s.data resp).1.inOpCode = s.data.inOpCode := by
        unfold Server.process
        rw [hparse]
        split <;> exact ⟨rfl, rfl, rfl⟩
      rw [heq.1]
      exact hinv.unchanged heq.2.1 heq.2.2
  | buildReq env id =>
    have hkeep : (Server.buildReq env s.data id).1.inBuf = s.data.inBuf ∧
        (Server.buildReq env s.data id).1.inOpCode = s.data.inOpCode := by
      unfold Server.buildReq
      split
      · exact ⟨rfl, rfl⟩
      · split
        · exact ⟨rfl, rfl⟩
        rename_i hload
        obtain ⟨hbuf, hop⟩ := loadMsg_inBuf hload
        exact ⟨buildMsg_inBuf.1.trans hbuf, buildMsg_inBuf.2.trans hop⟩
      · exact buildMsg_inBuf
      · exact ⟨rfl, rfl⟩
      · exact ⟨rfl, rfl⟩
    simp only [Receiver.serverExec]
    refine ⟨fun hnone => hinv.empty (hkeep.1 ▸ hnone), fun b hsome => ?_⟩
    simp only [hkeep.2]
    exact hinv.filled b (hkeep.1 ▸ hsome)
  | extRegTimeout => exact ⟨hinv.empty, hinv.filled⟩

end Receive

-- A message of the server reaches the peer, one of the peer reaches the server, each once and with its
-- op-code, and a receiver of arbitrary packets stores no more than was announced and mixes no op-codes.
theorem fragments_reassembled :
    (∀ (env : ℕ → Env) (ids : ℕ → UInt8) (server peer : Data) (opCode : UInt8) (msg : Octets) (fuel : ℕ),
      Allocates env → Sendable server opCode msg → Sending server opCode msg 0 →
      server.state = .mesg → server.extRegTimeout = false → peer.state = .mesg → peer.inBuf = none →
      msg.length < fuel → toPeer fuel env ids server peer = [(opCode, msg)]) ∧
    (∀ (env : ℕ → Env) (ids : ℕ → UInt8) (server peer : Data) (opCode : UInt8) (msg : Octets) (fuel : ℕ)
      (env₀ : Env) (id : UInt8),
      Allocates env → env₀.allocMsg = true → Sendable peer opCode msg → Sending peer opCode msg 0 →
      server.state ≠ .waitFragAck → server.extRegTimeout = false → server.inBuf = none →
      msg.length < fuel →
      toServer fuel env ids server (buildMsg true env₀ peer id).1
        ((buildMsg true env₀ peer id).2.getD []) = [(opCode, msg)]) ∧
    (∀ (data : Data) (s : Receiver), data.inBuf = none →
      Runs Receiver.peerExec (fun _ _ => True) ⟨data, []⟩ s →
      Bounded s ∧ ∀ env msg, OneOpCode s (parsePacket msg) (Peer.process env s.data msg).calls) ∧
    (∀ (data : Data) (s : Receiver), data.inBuf = none →
      Runs Receiver.serverExec (fun _ _ => True) ⟨data, []⟩ s →
      Bounded s ∧ ∀ env msg, OneOpCode s (parsePacket msg) (Server.process env s.data msg).2) := by
  refine ⟨?_, ?_, ?_, ?_⟩
  · intro env ids server peer opCode msg fuel henv hs hdata hserver htimeout hpeer hnone hfuel
    exact toPeer_eq fuel env ids server peer 0 henv hs hdata hserver htimeout hpeer hnone
      (Nat.zero_le _) hfuel
  · intro env ids server peer opCode msg fuel env₀ id henv hout hs hdata hserver htimeout hnone hfuel
    exact toServer_eq fuel env ids server peer 0 env₀ id henv hout hs hdata hserver htimeout hnone
      (Nat.zero_le _) hfuel
  · intro data s hnone hrun
    have hinv : ReceiverInv s := hrun.rule ⟨fun _ => rfl, by simp [hnone]⟩
      (fun u op h _ => receiverInv_peer op h)
    refine ⟨hinv.bounded, fun env msg => ?_⟩
    cases hparse : parsePacket msg with
    | some p => exact hinv.oneOpCode (peer_received hparse)
    | none => simp [Peer.process, hparse, OneOpCode, handed]
  · intro data s hnone hrun
    have hinv : ReceiverInv s := hrun.rule ⟨fun _ => rfl, by simp [hnone]⟩
      (fun u op h _ => receiverInv_server op h)
    refine ⟨hinv.bounded, fun env msg => ?_⟩
    cases hparse : parsePacket msg with
    | some p => exact hinv.oneOpCode (server_received hparse)
    | none =>
      have hcalls : (Server.process env s.data msg).2 = [] := by
        unfold Server.process
        rw [hparse]
        split <;> rfl
      simp [hcalls, OneOpCode, handed]

def tenOctets : Octets := List.replicate 10 7

def tenOctetsSender : Data :=
  { state := .mesg, outBuf := some tenOctets, outOpCode := wscMsg, fragmentSize := 5 }

theorem tenOctets_sendable : Sendable tenOctetsSender wscMsg tenOctets where
  opCode := by simp [IsMsgOpCode]
  size := by decide
  length := by decide
  fits := by
    unfold Fits
    decide

theorem fragments_reassembled_ten :
    toPeer 11 (fun _ => {}) (fun k => UInt8.ofNat k) tenOctetsSender { state := .mesg, fragmentSize := 5 } =
        [(wscMsg, tenOctets)] ∧
      toServer 11 (fun _ => {}) (fun k => UInt8.ofNat k) { state := .mesg, fragmentSize := 5 }
        (buildMsg true {} tenOctetsSender 0).1 ((buildMsg true {} tenOctetsSender 0).2.getD []) =
          [(wscMsg, tenOctets)] :=
  ⟨fragments_reassembled.1 _ _ _ _ wscMsg _ 11 (fun _ => ⟨rfl, rfl⟩) tenOctets_sendable
      ⟨rfl, rfl, rfl⟩ rfl rfl rfl rfl (by decide),
    fragments_reassembled.2.1 _ _ _ _ wscMsg _ 11 {} 0 (fun _ => ⟨rfl, rfl⟩) rfl
      tenOctets_sendable ⟨rfl, rfl, rfl⟩ (by decide) rfl rfl (by decide)⟩

section Oversized

variable {opCode : UInt8} {msg : Octets} {server peer : Data}

-- One packet whose length does not fit into its field is ignored, and no other one follows.
theorem toPeer_overflow (env : ℕ → Env) (ids : ℕ → UInt8) (fuel : ℕ) (hout : (env 0).allocMsg = true)
    (hdata : Sending server opCode msg 0) (hstate : server.state = .mesg)
    (hone : 2 + msg.length ≤ server.fragmentSize) (hover : 65536 ≤ 14 + msg.length)
    (hlen : 2 + msg.length < 65536) : toPeer (fuel + 1) env ids server peer = [] := by
  rcases nextFragment_cases msg hdata.outUsed with ⟨-, hf⟩ | ⟨hmore, -, -⟩ | ⟨-, h0, -⟩
  · have hpayload : fragmentPayload server msg = opCode :: 0 :: msg := by
      simp [fragmentPayload, hf, hdata.outOpCode, hdata.outUsed]
    have hinvalid : eapHdrValidate (eapMsg eapCodeRequest (ids 0) (opCode :: 0 :: msg)) = none := by
      apply eapHdrValidate_overflow
      · simp only [List.length_cons]
        omega
      · simp only [List.length_cons]
        omega
    unfold toPeer
    rw [buildReq_mesg hstate hdata, buildMsg_last hdata (Nat.zero_le _) hout hf, hpayload]
    simp [Peer.process, parsePacket, hinvalid, handed, sentState]
  · omega
  · exact absurd rfl h0

def longMsg : Octets := List.replicate 65530 0

def longSender : Data :=
  { state := .mesg, outBuf := some longMsg, outOpCode := wscMsg, fragmentSize := 65535 }

theorem long_msg_not_handed_over :
    longMsg.length ≤ 65535 ∧ 5 ≤ longSender.fragmentSize ∧ Sending longSender wscMsg longMsg 0 ∧
      toPeer 65536 (fun _ => {}) (fun _ => 0) longSender { state := .mesg, fragmentSize := 5 } = [] := by
  have hlen : longMsg.length = 65530 := List.length_replicate
  have hsending : Sending longSender wscMsg longMsg 0 := ⟨rfl, rfl, rfl⟩
  have hsize : longSender.fragmentSize = 65535 := rfl
  refine ⟨by omega, by omega, hsending, ?_⟩
  exact toPeer_overflow _ _ 65535 rfl hsending rfl (by omega) (by omega) (by omega)

end Oversized

end WpaSupplicant.EapWsc
