import WpaSupplicant.EapTls

namespace WpaSupplicant.EapTls

open Lib.Octets

-- How a message goes from one side to the other: what was handed on, the answers to the fragments before the
-- last one, and what both sides are left with
structure Outcome where
  handed : List Octets := []
  acks : List Octets := []
  server : Server.Data
  peer : Peer.Data

def IsEmpty (packet : Octets) : Prop :=
  ∃ code id, packet = eapMsg eapTypeTls code id [0] ∧ eapHdrValidate eapTypeTls packet = some [0]

-- A message was handed on once, every packet before the last one was answered with an empty message, and nothing
-- is left of it.
structure Outcome.Delivered (o : Outcome) (msg : Octets) : Prop where
  handed : o.handed = [msg]
  acks : ∀ ack ∈ o.acks, IsEmpty ack
  serverIn : o.server.tlsIn = none
  peerIn : o.peer.tlsIn = none
  peerLeft : o.peer.tlsInLeft = 0

def toPeer (success : Bool) : ℕ → (ℕ → Env) → (ℕ → UInt8) → Server.Data → Peer.Data → Outcome
  | 0, _, _, s, p => { server := s, peer := p }
  | fuel + 1, env, ids, s, p =>
    match Server.buildReq (env 0) s (ids 0) with
    | (s, none) => { server := s, peer := p }
    | (s, some req) =>
      let r := Peer.process (env 1) p req
      if r.2.2 ≠ [] then { handed := r.2.2, server := s, peer := r.1 }
      else
        match r.2.1 with
        | none => { server := s, peer := r.1 }
        | some resp =>
          let o := toPeer success fuel (fun k => env (k + 3)) (fun k => ids (k + 1))
            (Server.process (env 2) success s resp).1 r.1
          { o with acks := resp :: o.acks }

def toServer (success : Bool) : ℕ → (ℕ → Env) → (ℕ → UInt8) → Server.Data → Peer.Data → Octets → Outcome
  | 0, _, _, s, p, _ => { server := s, peer := p }
  | fuel + 1, env, ids, s, p, resp =>
    let t := Server.process (env 0) success s resp
    if t.2.2 ≠ [] then { handed := t.2.2, server := t.1, peer := p }
    else
      match Server.buildReq (env 1) t.1 (ids 0) with
      | (s, none) => { server := s, peer := p }
      | (s, some req) =>
        let r := Peer.process (env 2) p req
        match r.2.1 with
        | none => { server := s, peer := r.1 }
        | some resp =>
          let o := toServer success fuel (fun k => env (k + 3)) (fun k => ids (k + 1)) s r.1 resp
          { o with acks := req :: o.acks }

section Header

variable {code id : UInt8} {payload : Octets}

theorem length_eapMsg : (eapMsg eapTypeTls code id payload).length = 5 + payload.length := by
  simp [eapMsg]
  omega

theorem eapGetId_eapMsg : eapGetId (eapMsg eapTypeTls code id payload) = id := by
  have hlen : (eapMsg eapTypeTls code id payload).length = 5 + payload.length := length_eapMsg
  have hlong : ¬(eapMsg eapTypeTls code id payload).length < 4 := by omega
  unfold eapGetId
  rw [if_neg hlong]
  rfl

-- The packet is taken to have the length of its header: that of the packet modulo 2^16
theorem eapHdrValidate_eq :
    eapHdrValidate eapTypeTls (eapMsg eapTypeTls code id payload) =
      if (5 + payload.length) % 65536 < 5 then none
      else some (payload.take ((5 + payload.length) % 65536 - 5)) := by
  have hlen : (eapMsg eapTypeTls code id payload).length = 5 + payload.length := length_eapMsg
  have hfield : ofBE (((eapMsg eapTypeTls code id payload).drop 2).take 2) = (5 + payload.length) % 65536 := by
    have htake : ((eapMsg eapTypeTls code id payload).drop 2).take 2 = toBE 2 (5 + payload.length) := by
      simp [eapMsg]
    rw [htake, ofBE_toBE]
    rfl
  have htype : (eapMsg eapTypeTls code id payload)[4]? = some eapTypeTls := by simp [eapMsg, toBE]
  have hdrop : (eapMsg eapTypeTls code id payload).drop 5 = payload := by
    have hhead : ([code, id] ++ toBE 2 (5 + payload.length) ++ [eapTypeTls]).length = 5 := by simp
    exact List.drop_left' hhead
  have hle := Nat.mod_le (5 + payload.length) 65536
  unfold eapHdrValidate
  simp only [hlen, hfield, htype, hdrop]
  rw [if_neg (by omega)]
  by_cases hshort : (5 + payload.length) % 65536 < 5
  · rw [if_pos (Or.inl hshort), if_pos hshort]
  · rw [if_neg (by omega), if_neg (by decide), if_neg (by simp), if_neg hshort]

theorem eapHdrValidate_eapMsg (h : 5 + payload.length < 65536) :
    eapHdrValidate eapTypeTls (eapMsg eapTypeTls code id payload) = some payload := by
  have hmod : (5 + payload.length) % 65536 = 5 + payload.length := Nat.mod_eq_of_lt h
  rw [eapHdrValidate_eq, hmod, if_neg (by omega)]
  simp

end Header

section ToPeer

variable {env : Env} {id : UInt8} {s : Server.Data} {p : Peer.Data} {msg : Octets} {u n : ℕ}

-- The server has sent the first `u` octets of a message.
structure SSending (s : Server.Data) (msg : Octets) (u : ℕ) : Prop where
  tlsOut : s.tlsOut = some msg
  pos : s.tlsOutPos = u
  state : s.state = if u = 0 then .msg else .waitFragAck
  tlsIn : s.tlsIn = none

-- The first `u` octets of a message have arrived at the peer.
structure PArrived (p : Peer.Data) (msg : Octets) (u : ℕ) : Prop where
  tlsOut : p.tlsOut = none
  tlsIn : p.tlsIn = if u = 0 then none else some (msg.take u)
  left : p.tlsInLeft = if u = 0 then 0 else msg.length - u

theorem server_last (id : UInt8) (hs : SSending s msg u) (hu : u ≤ msg.length) (henv : env.alloc = true)
    (hlast : 1 + (msg.length - u) ≤ s.tlsOutLimit) :
    Server.buildReq env s id = ({ s with tlsOut := none, tlsOutPos := 0, state := .msg },
      some (eapMsg eapTypeTls eapCodeRequest id (0 :: msg.drop u))) := by
  have hstate : s.state ≠ .fragAck := by
    rw [hs.state]
    split <;> decide
  have hmore : ¬s.tlsOutLimit < 1 + (msg.length - u) := by omega
  have hall : u + (msg.length - u) = msg.length := by omega
  have htake : (msg.drop u).take (msg.length - u) = msg.drop u := by
    rw [← List.length_drop]
    exact List.take_length
  simp [Server.buildReq, if_neg hstate, Server.buildMsg, hs.tlsOut, hs.pos, hmore, henv, hall, htake]

theorem server_more (id : UInt8) (hs : SSending s msg u) (henv : env.alloc = true) (hlimit : 6 ≤ s.tlsOutLimit)
    (hmore : s.tlsOutLimit < 1 + (msg.length - u)) :
    ∃ n flags pre, 0 < n ∧ u + n < msg.length ∧ n + 1 + pre.length ≤ s.tlsOutLimit ∧
      (flags, pre) = (if u = 0 then (flagsMoreFragments ||| flagsLengthIncluded, toBE 4 msg.length)
        else (flagsMoreFragments, [])) ∧
      Server.buildReq env s id = ({ s with tlsOutPos := u + n, state := .waitFragAck },
        some (eapMsg eapTypeTls eapCodeRequest id (flags :: (pre ++ (msg.drop u).take n)))) := by
  have hstate : s.state ≠ .fragAck := by
    rw [hs.state]
    split <;> decide
  by_cases h0 : u = 0
  · subst h0
    have hne : ¬s.tlsOutLimit - 1 - 4 = msg.length := by omega
    refine ⟨s.tlsOutLimit - 1 - 4, flagsMoreFragments ||| flagsLengthIncluded, toBE 4 msg.length, by omega, by omega,
      ?_, by rw [if_pos rfl], ?_⟩
    · rw [length_toBE]
      omega
    · have hlt : s.tlsOutLimit < 1 + msg.length := by omega
      simp [Server.buildReq, if_neg hstate, Server.buildMsg, hs.tlsOut, hs.pos, hlt, henv, hne]
  · have hne : ¬u + (s.tlsOutLimit - 1) = msg.length := by omega
    refine ⟨s.tlsOutLimit - 1, flagsMoreFragments, [], by omega, by omega, ?_, by rw [if_neg h0], ?_⟩
    · simp only [List.length_nil]
      omega
    · simp [Server.buildReq, if_neg hstate, Server.buildMsg, hs.tlsOut, hs.pos, hmore, henv, hne, h0]

theorem dataReassemble_more (hin : p.tlsIn.getD [] = msg.take u) (hleft : p.tlsInLeft = msg.length - u)
    (hmax : msg.length ≤ 65536) (hn : 0 < n) (hun : u + n < msg.length) (henv : env.alloc = true) :
    Peer.dataReassemble env p ((msg.drop u).take n) =
      ({ p with tlsIn := some (msg.take (u + n)), tlsInLeft := msg.length - (u + n) }, .needMore) := by
  have hlen : ((msg.drop u).take n).length = n := by
    rw [List.length_take, List.length_drop]
    omega
  have htaken : (msg.take u).length = u := by
    rw [List.length_take]
    omega
  have hfragment : n < p.tlsInLeft ∨ p.tlsIn.isSome = true := by omega
  have hnot : ¬(u + n = 0) ∧ ¬65536 < u + n ∧ ¬msg.length - u < n := by omega
  have hrest : msg.length - u - n = msg.length - (u + n) ∧ 0 < msg.length - (u + n) := by omega
  unfold Peer.dataReassemble
  rw [hlen, if_pos hfragment]
  unfold Peer.reassembleFragment
  simp only [hin, hlen, htaken, hleft, if_neg hnot.1, if_neg hnot.2.1, if_neg hnot.2.2, henv, hrest.1,
    if_pos hrest.2, Bool.not_true, Bool.false_eq_true, if_false, List.take_add]

theorem dataReassemble_last (hp : PArrived p msg u) (hmax : msg.length ≤ 65536) (hu : u < msg.length)
    (henv : env.alloc = true) :
    Peer.dataReassemble env p (msg.drop u) = ({ p with tlsIn := some msg, tlsInLeft := 0 }, .done) := by
  by_cases h0 : u = 0
  · subst h0
    have hin : p.tlsIn = none := hp.tlsIn
    have hleft : p.tlsInLeft = 0 := hp.left
    simp [Peer.dataReassemble, hin, hleft, henv]
  have hin : p.tlsIn = some (msg.take u) := by rw [hp.tlsIn, if_neg h0]
  have hleft : p.tlsInLeft = msg.length - u := by rw [hp.left, if_neg h0]
  have hlen : (msg.drop u).length = msg.length - u := List.length_drop
  have htaken : (msg.take u).length = u := by
    rw [List.length_take]
    omega
  have hnot : ¬(u + (msg.length - u) = 0) ∧ ¬65536 < u + (msg.length - u) := by omega
  unfold Peer.dataReassemble
  rw [if_pos (Or.inr (by rw [hin]; rfl))]
  unfold Peer.reassembleFragment
  simp [hin, hlen, htaken, hleft, henv, if_neg hnot.2]
  omega

theorem processInit_plain {flags : UInt8} {data : Octets} (henv : env.errors = false)
    (hflags : flags &&& flagsLengthIncluded = 0) (hfits : 6 + data.length < 65536) :
    Peer.processInit env p eapTypeTls (eapMsg eapTypeTls eapCodeRequest id (flags :: data)) =
      some (p, flags, data) := by
  have hlen : 5 + (flags :: data).length < 65536 := by
    rw [List.length_cons]
    omega
  simp [Peer.processInit, eapHdrValidate_eapMsg hlen, henv, hflags]

theorem processInit_length {flags : UInt8} {data : Octets} (henv : env.errors = false)
    (hflags : flags &&& flagsLengthIncluded ≠ 0) (hfits : 10 + data.length < 65536) (hleft : p.tlsInLeft = 0)
    (hmax : msg.length ≤ 65536) :
    Peer.processInit env p eapTypeTls
        (eapMsg eapTypeTls eapCodeRequest id (flags :: (toBE 4 msg.length ++ data))) =
      some ({ p with tlsInTotal := msg.length, tlsInLeft := msg.length, tlsIn := none }, flags, data) := by
  have hlen : 5 + (flags :: (toBE 4 msg.length ++ data)).length < 65536 := by
    rw [List.length_cons, List.length_append, length_toBE]
    omega
  have hfield : ofBE (toBE 4 msg.length) = msg.length := by
    rw [ofBE_toBE]
    exact Nat.mod_eq_of_lt (by omega)
  have htake : (toBE 4 msg.length ++ data).take 4 = toBE 4 msg.length := List.take_left' (length_toBE 4 _)
  have hdrop : (toBE 4 msg.length ++ data).drop 4 = data := List.drop_left' (length_toBE 4 _)
  have hlong : ¬(toBE 4 msg.length ++ data).length < 4 := by
    rw [List.length_append, length_toBE]
    omega
  simp only [Peer.processInit, eapHdrValidate_eapMsg hlen, henv, Bool.false_eq_true, if_false, if_pos hflags,
    if_neg hlong, htake, hdrop, hfield, hleft, if_true]

theorem processOutput_input {type version : UInt8} {ret : Peer.Res} :
    (Peer.processOutput env p type version id ret).data.tlsIn = p.tlsIn ∧
      (Peer.processOutput env p type version id ret).data.tlsInLeft = p.tlsInLeft := by
  unfold Peer.processOutput
  split
  · exact ⟨rfl, rfl⟩
  split
  · exact ⟨rfl, rfl⟩
  · dsimp only
    split <;> exact ⟨rfl, rfl⟩

theorem sendPending_input (env : Env) (id : UInt8) (r : Peer.Ret) :
    (Peer.sendPending env r eapTypeTls 0 id).data.tlsIn = r.data.tlsIn ∧
      (Peer.sendPending env r eapTypeTls 0 id).data.tlsInLeft = r.data.tlsInLeft ∧
      (Peer.sendPending env r eapTypeTls 0 id).handed = r.handed := by
  unfold Peer.sendPending
  split
  · exact ⟨rfl, rfl, rfl⟩
  · exact ⟨rfl, rfl, rfl⟩
  · exact ⟨processOutput_input.1, processOutput_input.2, rfl⟩

theorem peer_process_eq {req data : Octets} {flags : UInt8} {p' : Peer.Data}
    (hinit : Peer.processInit env p eapTypeTls req = some (p', flags, data)) (hflags : flags &&& flagsStart = 0)
    (hid : eapGetId req = id) :
    ∃ resp, Peer.process env p req = ((Peer.processHelper env p' eapTypeTls 0 id data).data, resp,
        (Peer.processHelper env p' eapTypeTls 0 id data).handed) ∧
      ((Peer.processHelper env p' eapTypeTls 0 id data).res = .ack → resp = Peer.buildAck env eapTypeTls 0 id) ∧
      ((Peer.processHelper env p' eapTypeTls 0 id data).res = .ok →
        resp = (Peer.processHelper env p' eapTypeTls 0 id data).msg) := by
  simp only [Peer.process, hinit, hid, hflags, ne_eq, not_true_eq_false, if_false]
  cases hres : (Peer.processHelper env p' eapTypeTls 0 id data).res with
  | ok | ack | appl | fail => exact ⟨_, rfl, by simp, by simp⟩

theorem peer_last (id : UInt8) (hp : PArrived p msg u) (hu : u < msg.length) (hmax : msg.length ≤ 65536)
    (henv : env.alloc = true ∧ env.errors = false) (hfits : 6 + (msg.length - u) < 65536) :
    ∃ p' resp, Peer.process env p (eapMsg eapTypeTls eapCodeRequest id (0 :: msg.drop u)) = (p', resp, [msg]) ∧
      p'.tlsIn = none ∧ p'.tlsInLeft = 0 := by
  have hlen : 6 + (msg.drop u).length < 65536 := by
    rw [List.length_drop]
    exact hfits
  have hinit : Peer.processInit env p eapTypeTls (eapMsg eapTypeTls eapCodeRequest id (0 :: msg.drop u)) =
      some (p, 0, msg.drop u) := processInit_plain henv.2 (by decide) hlen
  obtain ⟨resp, hprocess, -, -⟩ := peer_process_eq hinit (by decide) eapGetId_eapMsg
  have hinput : (Peer.processInput env p (msg.drop u)).handed = [msg] ∧
      (Peer.processInput env p (msg.drop u)).data.tlsIn = none ∧
      (Peer.processInput env p (msg.drop u)).data.tlsInLeft = 0 := by
    unfold Peer.processInput
    rw [dataReassemble_last hp hmax hu henv.1]
    dsimp only
    split <;> exact ⟨rfl, rfl, rfl⟩
  have hhelper : (Peer.processHelper env p eapTypeTls 0 id (msg.drop u)).handed = [msg] ∧
      (Peer.processHelper env p eapTypeTls 0 id (msg.drop u)).data.tlsIn = none ∧
      (Peer.processHelper env p eapTypeTls 0 id (msg.drop u)).data.tlsInLeft = 0 := by
    unfold Peer.processHelper
    rw [hp.tlsOut]
    dsimp only
    split
    · exact hinput
    · obtain ⟨hin, hleft, hhanded⟩ := sendPending_input env id (Peer.processInput env p (msg.drop u))
      exact ⟨hhanded.trans hinput.1, hin.trans hinput.2.1, hleft.trans hinput.2.2⟩
  exact ⟨_, resp, by rw [hprocess, hhelper.1], hhelper.2⟩

theorem peer_more (id : UInt8) {flags : UInt8} {pre : Octets} (hp : PArrived p msg u) (hmax : msg.length ≤ 65536)
    (henv : env.alloc = true ∧ env.errors = false) (hn : 0 < n) (hun : u + n < msg.length)
    (hpre : (flags, pre) = (if u = 0 then (flagsMoreFragments ||| flagsLengthIncluded, toBE 4 msg.length)
        else (flagsMoreFragments, [])))
    (hfits : 6 + pre.length + n < 65536) :
    ∃ p', Peer.process env p (eapMsg eapTypeTls eapCodeRequest id (flags :: (pre ++ (msg.drop u).take n))) =
        (p', some (eapMsg eapTypeTls eapCodeResponse id [0]), []) ∧ PArrived p' msg (u + n) := by
  have hlen : ((msg.drop u).take n).length = n := by
    rw [List.length_take, List.length_drop]
    omega
  have hne : ¬u + n = 0 := by omega
  -- the packet with the length starts the reassembly, and the others continue it
  have hinit : ∃ p₁, Peer.processInit env p eapTypeTls
      (eapMsg eapTypeTls eapCodeRequest id (flags :: (pre ++ (msg.drop u).take n))) =
        some (p₁, flags, (msg.drop u).take n) ∧ p₁.tlsOut = none ∧ p₁.tlsIn.getD [] = msg.take u ∧
      p₁.tlsInLeft = msg.length - u ∧ flags &&& flagsStart = 0 := by
    by_cases h0 : u = 0
    · rw [if_pos h0] at hpre
      obtain ⟨rfl, rfl⟩ := Prod.mk.inj hpre
      rw [length_toBE] at hfits
      have hleft : p.tlsInLeft = 0 := by rw [hp.left, if_pos h0]
      refine ⟨_, processInit_length henv.2 (by decide) (by omega) hleft hmax, hp.tlsOut, ?_, ?_, by decide⟩
      · rw [h0]
        rfl
      · rw [h0]
        rfl
    · rw [if_neg h0] at hpre
      obtain ⟨rfl, rfl⟩ := Prod.mk.inj hpre
      have hlt : 6 + ((msg.drop u).take n).length < 65536 := by
        rw [List.length_nil] at hfits
        omega
      refine ⟨p, processInit_plain henv.2 (by decide) hlt, hp.tlsOut, ?_, ?_, by decide⟩
      · rw [hp.tlsIn, if_neg h0]
        rfl
      · rw [hp.left, if_neg h0]
  obtain ⟨p₁, hinit, hout, hin, hleft, hstart⟩ := hinit
  obtain ⟨resp, hprocess, hack, -⟩ := peer_process_eq hinit hstart eapGetId_eapMsg
  have hhelper : Peer.processHelper env p₁ eapTypeTls 0 id ((msg.drop u).take n) =
      { data := { p₁ with tlsIn := some (msg.take (u + n)), tlsInLeft := msg.length - (u + n) }, res := .ack } := by
    simp [Peer.processHelper, hout, Peer.processInput,
      dataReassemble_more hin hleft hmax hn hun henv.1]
  rw [hhelper] at hprocess hack
  have hresp : resp = some (eapMsg eapTypeTls eapCodeResponse id [0]) := by
    rw [hack rfl]
    simp [Peer.buildAck, henv.1]
  rw [hresp] at hprocess
  exact ⟨_, hprocess, hout, by rw [if_neg hne], by rw [if_neg hne]⟩

theorem server_ack (env : Env) (id : UInt8) (success : Bool) (hs : s.state = .waitFragAck) :
    Server.process env success s (eapMsg eapTypeTls eapCodeResponse id [0]) = (s, false, []) := by
  have hvalid : eapHdrValidate eapTypeTls (eapMsg eapTypeTls eapCodeResponse id [0]) = some [0] :=
    eapHdrValidate_eapMsg (by decide)
  have hreassemble : Server.reassemble env s 0 [] = (s, .wait) := by
    simp [Server.reassemble, Server.reassembleData, hs]
  simp only [Server.process, hvalid, hreassemble]

theorem isEmpty_ack {code : UInt8} : IsEmpty (eapMsg eapTypeTls code id [0]) :=
  ⟨code, id, rfl, eapHdrValidate_eapMsg (by decide)⟩

theorem toPeer_eq {success : Bool} {fuel : ℕ} (env : ℕ → Env) (ids : ℕ → UInt8)
    (henv : ∀ k, (env k).alloc = true ∧ (env k).errors = false) (hmax : msg.length ≤ 65536) (hs : SSending s msg u)
    (hp : PArrived p msg u) (hu : u < msg.length) (hlimit : 6 ≤ s.tlsOutLimit)
    (hfits : 5 + min (1 + msg.length) s.tlsOutLimit < 65536) (hfuel : msg.length - u ≤ fuel) :
    (toPeer success fuel env ids s p).Delivered msg ∧ (toPeer success fuel env ids s p).server.tlsOut = none ∧
      (toPeer success fuel env ids s p).server.tlsOutPos = 0 := by
  induction fuel generalizing env ids s p u with
  | zero => omega
  | succ fuel ih =>
    unfold toPeer
    by_cases hlast : 1 + (msg.length - u) ≤ s.tlsOutLimit
    · have hbuild := server_last (ids 0) hs (by omega) (henv 0).1 hlast
      obtain ⟨p', resp, hpeer, hin, hleft⟩ := peer_last (ids 0) hp hu hmax (henv 1) (by omega)
      simp only [hbuild, hpeer]
      exact ⟨⟨rfl, by simp, hs.tlsIn, hin, hleft⟩, rfl, rfl⟩
    obtain ⟨n, flags, pre, hn, hun, hsize, hpre, hbuild⟩ :=
      server_more (ids 0) hs (henv 0).1 hlimit (by omega)
    obtain ⟨p', hpeer, hp'⟩ := peer_more (ids 0) hp hmax (henv 1) hn hun hpre (by omega)
    have hack := server_ack (env 2) (ids 0) success
      (s := { s with tlsOutPos := u + n, state := .waitFragAck }) rfl
    have hs' : SSending { s with tlsOutPos := u + n, state := .waitFragAck } msg (u + n) :=
      ⟨hs.tlsOut, rfl, by rw [if_neg (by omega)], hs.tlsIn⟩
    obtain ⟨hdelivered, hout, hpos⟩ := ih (fun k => env (k + 3)) (fun k => ids (k + 1))
      (fun k => henv (k + 3)) hs' hp' hun hlimit hfits (by omega)
    simp only [hbuild, hpeer, hack, ne_eq, not_true_eq_false, if_false]
    refine ⟨⟨hdelivered.handed, ?_, hdelivered.serverIn, hdelivered.peerIn, hdelivered.peerLeft⟩, hout, hpos⟩
    intro ack hmem
    rcases List.mem_cons.mp hmem with rfl | hmem
    · exact isEmpty_ack
    · exact hdelivered.acks ack hmem

end ToPeer

section ToServer

variable {env : Env} {id : UInt8} {s : Server.Data} {p : Peer.Data} {msg resp : Octets} {u v : ℕ}

-- A packet with the octets from `u` to `v` of a message
structure Part (msg : Octets) (u v : ℕ) (resp : Octets) (id : UInt8) (withLength : Bool) : Prop where
  lt : u < v
  le : v ≤ msg.length
  packet : resp = eapMsg eapTypeTls eapCodeResponse id
    (((if v < msg.length then flagsMoreFragments else 0) ||| (if withLength then flagsLengthIncluded else 0)) ::
      ((if withLength then toBE 4 msg.length else []) ++ (msg.drop u).take (v - u)))
  first : u = 0 → v < msg.length → withLength = true
  fits : 6 + (v - u) + (if withLength then 4 else 0) < 65536

-- The peer has sent the first `v` octets of a message.
def PSent (p : Peer.Data) (msg : Octets) (v : ℕ) : Prop :=
  if v < msg.length then p.tlsOut = some msg ∧ p.tlsOutPos = v else p.tlsOut = none ∧ p.tlsOutPos = 0

-- The first `u` octets of a message have arrived at the server.
structure SArrived (s : Server.Data) (msg : Octets) (u : ℕ) : Prop where
  tlsIn : s.tlsIn = if u = 0 then none else some ⟨msg.length, msg.take u⟩
  state : s.state = if u = 0 then .msg else .fragAck

theorem peer_output (id : UInt8) (ret : Peer.Res) (hout : p.tlsOut = some msg) (hpos : p.tlsOutPos = u) (hu : u < msg.length)
    (hlimit : 1 ≤ p.tlsOutLimit) (henv : env.alloc = true)
    (hfits : 6 + min msg.length p.tlsOutLimit +
      (if p.tlsOutLimit < msg.length ∨ p.includeTlsLength = true then 4 else 0) < 65536) :
    ∃ v resp withLength p', Peer.processOutput env p eapTypeTls 0 id ret =
        { data := p', res := ret, msg := some resp } ∧
      Part msg u v resp id withLength ∧ PSent p' msg v ∧ p'.tlsIn = p.tlsIn ∧ p'.tlsInLeft = p.tlsInLeft ∧
      p'.tlsOutLimit = p.tlsOutLimit ∧ p'.includeTlsLength = p.includeTlsLength := by
  have hpeap : decide (eapTypeTls = eapTypePeap) = false := by decide
  by_cases hmore : p.tlsOutLimit < msg.length - u
  · have hv : u + p.tlsOutLimit < msg.length := by omega
    have hN : p.tlsOutLimit < msg.length := by omega
    have hlen : u + p.tlsOutLimit - u = p.tlsOutLimit := by omega
    rw [if_pos (Or.inl hN)] at hfits
    refine ⟨u + p.tlsOutLimit, _, decide (u = 0), { p with tlsOutPos := u + p.tlsOutLimit }, ?_,
      ⟨by omega, by omega, rfl, ?_, ?_⟩, ?_, rfl, rfl, rfl, rfl⟩
    · simp [Peer.processOutput, hout, hpos, hmore, hN, henv, hpeap, hv]
    · intro h0 _
      simp [h0]
    · split <;> omega
    · unfold PSent
      rw [if_pos hv]
      exact ⟨hout, rfl⟩
  · have hv : u + (msg.length - u) = msg.length := by omega
    have hnot : ¬msg.length < msg.length := by omega
    refine ⟨msg.length, _, decide (u = 0) && (decide (p.tlsOutLimit < msg.length) || p.includeTlsLength),
      Peer.resetOutput { p with tlsOutPos := msg.length }, ?_,
      ⟨by omega, by omega, rfl, ?_, ?_⟩, ?_, rfl, rfl, rfl, rfl⟩
    · simp [Peer.processOutput, hout, hpos, hmore, henv, hpeap, hv]
    · intro _ h
      omega
    · by_cases hincluded : p.tlsOutLimit < msg.length ∨ p.includeTlsLength = true
      · rw [if_pos hincluded] at hfits
        split <;> omega
      have hoff : (decide (u = 0) && (decide (p.tlsOutLimit < msg.length) || p.includeTlsLength)) = false := by
        simp_all
      rw [if_neg hincluded] at hfits
      rw [hoff]
      simp
      omega
    · unfold PSent
      rw [if_neg hnot]
      exact ⟨rfl, rfl⟩

theorem peer_ack (id : UInt8) (hout : p.tlsOut = some msg) (hpos : p.tlsOutPos = u) (hu : u < msg.length)
    (hlimit : 1 ≤ p.tlsOutLimit) (henv : env.alloc = true ∧ env.errors = false)
    (hfits : 6 + min msg.length p.tlsOutLimit +
      (if p.tlsOutLimit < msg.length ∨ p.includeTlsLength = true then 4 else 0) < 65536) :
    ∃ v resp withLength p', Peer.process env p (eapMsg eapTypeTls eapCodeRequest id [0]) = (p', some resp, []) ∧
      Part msg u v resp id withLength ∧ PSent p' msg v ∧ p'.tlsIn = p.tlsIn ∧ p'.tlsInLeft = p.tlsInLeft ∧
      p'.tlsOutLimit = p.tlsOutLimit ∧ p'.includeTlsLength = p.includeTlsLength := by
  obtain ⟨v, resp, withLength, p', houtput, hrest⟩ :=
    peer_output id (if env.failed then .fail else .ok) hout hpos hu hlimit henv.1 hfits
  have hinit : Peer.processInit env p eapTypeTls (eapMsg eapTypeTls eapCodeRequest id [0]) = some (p, 0, []) :=
    processInit_plain henv.2 (by decide) (by decide)
  obtain ⟨x, xs, hmsg⟩ : ∃ x xs, msg = x :: xs := List.exists_cons_of_length_pos (by omega)
  have hhelper : Peer.processHelper env p eapTypeTls 0 id [] =
      { data := p', res := if env.failed then .fail else .ok, msg := some resp } := by
    unfold Peer.processHelper
    rw [hout, hmsg]
    unfold Peer.sendPending
    dsimp only
    rw [hout, hmsg]
    simp [houtput]
  refine ⟨v, resp, withLength, p', ?_, hrest⟩
  unfold Peer.process
  rw [hinit]
  dsimp only
  rw [eapGetId_eapMsg, if_neg (by decide), hhelper]
  cases env.failed <;> rfl

theorem server_parse (env : Env) (s : Server.Data) {withLength : Bool} (hpart : Part msg u v resp id withLength) (hmax : msg.length ≤ 65536) :
    ∃ flags rest len, eapHdrValidate eapTypeTls resp = some (flags :: rest) ∧
      Server.reassemble env s flags rest = Server.reassembleData env s flags len ((msg.drop u).take (v - u)) ∧
      (flags &&& flagsMoreFragments ≠ 0 ↔ v < msg.length) ∧
      (u = 0 → v < msg.length → flags &&& flagsLengthIncluded ≠ 0 ∧ len = msg.length) := by
  have hchunk : ((msg.drop u).take (v - u)).length = v - u := by
    have := hpart.le
    rw [List.length_take, List.length_drop]
    omega
  have hvalid : eapHdrValidate eapTypeTls resp =
      some (((if v < msg.length then flagsMoreFragments else 0) ||| (if withLength then flagsLengthIncluded else 0)) ::
        ((if withLength then toBE 4 msg.length else []) ++ (msg.drop u).take (v - u))) := by
    have hfits := hpart.fits
    rw [hpart.packet]
    apply eapHdrValidate_eapMsg
    cases withLength <;> simp [hchunk] at hfits ⊢ <;> omega
  refine ⟨_, _, if withLength then msg.length else 0, hvalid, ?_, ?_, ?_⟩
  · cases withLength with
    | false =>
      have hflags : (if v < msg.length then flagsMoreFragments else 0) &&& flagsLengthIncluded = 0 := by
        split <;> decide
      simp [Server.reassemble, hflags]
    | true =>
      have hflags : ((if v < msg.length then flagsMoreFragments else 0) ||| flagsLengthIncluded) &&&
          flagsLengthIncluded ≠ 0 := by
        split <;> decide
      have hfield : ofBE (toBE 4 msg.length) = msg.length := by
        rw [ofBE_toBE]
        exact Nat.mod_eq_of_lt (by omega)
      have htake : (toBE 4 msg.length ++ (msg.drop u).take (v - u)).take 4 = toBE 4 msg.length :=
        List.take_left' (length_toBE 4 _)
      have hdrop : (toBE 4 msg.length ++ (msg.drop u).take (v - u)).drop 4 = (msg.drop u).take (v - u) :=
        List.drop_left' (length_toBE 4 _)
      have hlong : ¬(toBE 4 msg.length ++ (msg.drop u).take (v - u)).length < 4 := by
        rw [List.length_append, length_toBE]
        omega
      simp only [Server.reassemble, if_true, if_pos hflags, if_neg hlong, htake, hdrop, hfield]
  · by_cases hv : v < msg.length
    · simp only [hv, if_true, iff_true]
      cases withLength <;> decide
    · simp only [hv, if_false, iff_false, not_not]
      cases withLength <;> decide
  · intro h0 hv
    have hlen : withLength = true := hpart.first h0 hv
    simp only [hlen, hv, if_true, and_true]
    decide

theorem server_take_last (env : Env) (success : Bool) {withLength : Bool} (hs : SArrived s msg u)
    (hpart : Part msg u msg.length resp id withLength) (hmax : msg.length ≤ 65536) :
    ∃ s' fail, Server.process env success s resp = (s', fail, [msg]) ∧ s'.tlsIn = none ∧ s'.state = .msg := by
  obtain ⟨flags, rest, len, hvalid, hreassemble, hmore, -⟩ :=
    server_parse env s hpart hmax
  have hu := hpart.lt
  have hflags : ¬flags &&& flagsMoreFragments ≠ 0 := by
    rw [hmore]
    omega
  have htake : (msg.drop u).take (msg.length - u) = msg.drop u := by
    rw [← List.length_drop]
    exact List.take_length
  have hnonempty : msg.isEmpty = false := by
    cases msg with
    | nil => simp at hu
    | cons x xs => rfl
  have hdone : ∃ s' buf, Server.reassembleData env s flags len ((msg.drop u).take (msg.length - u)) =
      (s', .done) ∧ s'.tlsIn = some buf ∧ buf.used = msg ∧ s'.state = .msg := by
    rw [htake]
    by_cases h0 : u = 0
    · subst h0
      have hin : s.tlsIn = none := hs.tlsIn
      have hstate : s.state = .msg := hs.state
      refine ⟨{ s with tlsIn := some ⟨msg.length, msg⟩ }, ⟨msg.length, msg⟩, ?_, rfl, rfl, hstate⟩
      simp [Server.reassembleData, hstate, hin, if_neg hflags]
    · have hin : s.tlsIn = some ⟨msg.length, msg.take u⟩ := by rw [hs.tlsIn, if_neg h0]
      have hstate : s.state = .fragAck := by rw [hs.state, if_neg h0]
      have hroom : ¬msg.length - (msg.take u).length < (msg.drop u).length := by
        rw [List.length_take, List.length_drop]
        omega
      refine ⟨{ s with tlsIn := some ⟨msg.length, msg.take u ++ msg.drop u⟩, state := .msg },
        ⟨msg.length, msg.take u ++ msg.drop u⟩, ?_, rfl, List.take_append_drop u msg, rfl⟩
      simp only [Server.reassembleData, hstate, hin, Server.processCont, if_neg hroom, if_neg hflags]
      rfl
  obtain ⟨s', buf, hdata, hbuf, hused, hstate⟩ := hdone
  refine ⟨{ s' with tlsIn := none, tlsOut := env.out }, env.out.isNone || env.failed, ?_, rfl, hstate⟩
  unfold Server.process
  rw [hvalid]
  dsimp only
  rw [hreassemble, hdata]
  simp [hbuf, hused, hnonempty]

theorem server_take_more (env : Env) (success : Bool) {withLength : Bool} (hs : SArrived s msg u)
    (hpart : Part msg u v resp id withLength) (hmax : msg.length ≤ 65536) (hv : v < msg.length)
    (henv : env.alloc = true) :
    Server.process env success s resp =
      ({ s with tlsIn := some ⟨msg.length, msg.take v⟩, state := .fragAck }, false, []) := by
  obtain ⟨flags, rest, len, hvalid, hreassemble, hmore, hfirst⟩ :=
    server_parse env s hpart hmax
  have hu := hpart.lt
  have hflags : flags &&& flagsMoreFragments ≠ 0 := hmore.mpr hv
  have hsum : u + (v - u) = v := by omega
  have hdata : Server.reassembleData env s flags len ((msg.drop u).take (v - u)) =
      ({ s with tlsIn := some ⟨msg.length, msg.take v⟩, state := .fragAck }, .wait) := by
    by_cases h0 : u = 0
    · subst h0
      obtain ⟨hlen, rfl⟩ := hfirst rfl hv
      have hin : s.tlsIn = none := hs.tlsIn
      have hstate : s.state = .msg := hs.state
      have hsmall : ¬65536 < msg.length := by omega
      simp [Server.reassembleData, hstate, hin, hflags, Server.processFragment, hlen, hsmall, henv]
    · have hin : s.tlsIn = some ⟨msg.length, msg.take u⟩ := by rw [hs.tlsIn, if_neg h0]
      have hstate : s.state = .fragAck := by rw [hs.state, if_neg h0]
      have hroom : ¬msg.length - (msg.take u).length < ((msg.drop u).take (v - u)).length := by
        rw [List.length_take, List.length_take, List.length_drop]
        omega
      have htake : msg.take u ++ (msg.drop u).take (v - u) = msg.take v := by
        rw [← List.take_add, hsum]
      simp only [Server.reassembleData, hstate, hin, Server.processCont, if_neg hroom, if_pos hflags, htake]
      rfl
  simp only [Server.process, hvalid, hreassemble, hdata]

theorem server_buildAck (env : Env) (id : UInt8) (hstate : s.state = .fragAck) (henv : env.alloc = true) :
    Server.buildReq env s id = (s, some (eapMsg eapTypeTls eapCodeRequest id [0])) := by
  simp [Server.buildReq, hstate, Server.buildAck, henv]

theorem toServer_eq {success withLength : Bool} {fuel : ℕ} (env : ℕ → Env) (ids : ℕ → UInt8)
    (henv : ∀ k, (env k).alloc = true ∧ (env k).errors = false) (hmax : msg.length ≤ 65536) (hs : SArrived s msg u)
    (hpart : Part msg u v resp id withLength) (hp : PSent p msg v) (hin : p.tlsIn = none) (hleft : p.tlsInLeft = 0)
    (hlimit : 1 ≤ p.tlsOutLimit)
    (hfits : 6 + min msg.length p.tlsOutLimit +
      (if p.tlsOutLimit < msg.length ∨ p.includeTlsLength = true then 4 else 0) < 65536)
    (hfuel : msg.length - u ≤ fuel) :
    (toServer success fuel env ids s p resp).Delivered msg ∧
      (toServer success fuel env ids s p resp).peer.tlsOut = none ∧
      (toServer success fuel env ids s p resp).peer.tlsOutPos = 0 := by
  have hlt := hpart.lt
  have hle := hpart.le
  induction fuel generalizing env ids id s p u v resp withLength with
  | zero => omega
  | succ fuel ih =>
    unfold toServer
    by_cases hv : v < msg.length
    · obtain ⟨hout, hpos⟩ : p.tlsOut = some msg ∧ p.tlsOutPos = v := by
        unfold PSent at hp
        rwa [if_pos hv] at hp
      have htake := server_take_more (env 0) success hs hpart hmax hv (henv 0).1
      have hack := server_buildAck (env 1) (ids 0)
        (s := { s with tlsIn := some ⟨msg.length, msg.take v⟩, state := .fragAck }) rfl (henv 1).1
      obtain ⟨v', resp', withLength', p', hpeer, hpart', hp', hin', hleft', hlimit', hinclude⟩ :=
        peer_ack (ids 0) hout hpos hv hlimit (henv 2) hfits
      have hs' : SArrived { s with tlsIn := some ⟨msg.length, msg.take v⟩, state := .fragAck } msg v :=
        ⟨by rw [if_neg (by omega)], by rw [if_neg (by omega)]⟩
      obtain ⟨hdelivered, hout', hpos'⟩ := ih (fun k => env (k + 3)) (fun k => ids (k + 1))
        (fun k => henv (k + 3)) hs' hpart' hp' (hin'.trans hin) (hleft'.trans hleft) (by omega)
        (by rw [hlimit', hinclude]; exact hfits) (by omega) hpart'.lt hpart'.le
      simp only [htake, hack, hpeer, ne_eq, not_true_eq_false, if_false]
      refine ⟨⟨hdelivered.handed, ?_, hdelivered.serverIn, hdelivered.peerIn, hdelivered.peerLeft⟩, hout', hpos'⟩
      intro ack hmem
      rcases List.mem_cons.mp hmem with rfl | hmem
      · exact isEmpty_ack
      · exact hdelivered.acks ack hmem
    · obtain rfl : v = msg.length := by omega
      obtain ⟨s', fail, htake, hsin, -⟩ := server_take_last (env 0) success hs hpart hmax
      have hsent : p.tlsOut = none ∧ p.tlsOutPos = 0 := by
        unfold PSent at hp
        rwa [if_neg hv] at hp
      simp only [htake]
      exact ⟨⟨rfl, by simp, hsin, hin, hleft⟩, hsent⟩

end ToServer

def Allocates (env : ℕ → Env) : Prop := ∀ k, (env k).alloc = true ∧ (env k).errors = false

structure ServerSends (s : Server.Data) (p : Peer.Data) (msg : Octets) : Prop where
  sending : SSending s msg 0
  arrived : PArrived p msg 0
  size : 6 ≤ s.tlsOutLimit
  fits : 5 + min (1 + msg.length) s.tlsOutLimit < 65536

structure PeerSends (s : Server.Data) (p : Peer.Data) (msg : Octets) : Prop where
  tlsOut : p.tlsOut = some msg
  pos : p.tlsOutPos = 0
  arrived : SArrived s msg 0
  tlsIn : p.tlsIn = none
  left : p.tlsInLeft = 0
  size : 1 ≤ p.tlsOutLimit
  fits : 6 + min msg.length p.tlsOutLimit +
    (if p.tlsOutLimit < msg.length ∨ p.includeTlsLength = true then 4 else 0) < 65536

-- A message is handed on once and as it was, every packet before the last one is acknowledged, and neither side
-- keeps a part of it.
theorem message_reassembled (env : ℕ → Env) (ids : ℕ → UInt8) (success : Bool) (s : Server.Data) (p : Peer.Data)
    (msg : Octets) (henv : Allocates env) (hmin : 1 ≤ msg.length) (hmax : msg.length ≤ 65536) :
    (ServerSends s p msg →
      (toPeer success msg.length env ids s p).Delivered msg ∧
        (toPeer success msg.length env ids s p).server.tlsOut = none ∧
        (toPeer success msg.length env ids s p).server.tlsOutPos = 0) ∧
    (PeerSends s p msg →
      ∃ p' resp, Peer.processOutput (env 0) p eapTypeTls 0 (ids 0) .ok = { data := p', res := .ok, msg := some resp } ∧
        (toServer success msg.length (fun k => env (k + 1)) (fun k => ids (k + 1)) s p' resp).Delivered msg ∧
        (toServer success msg.length (fun k => env (k + 1)) (fun k => ids (k + 1)) s p' resp).peer.tlsOut = none ∧
        (toServer success msg.length (fun k => env (k + 1)) (fun k => ids (k + 1)) s p' resp).peer.tlsOutPos = 0) := by
  refine ⟨fun h => ?_, fun h => ?_⟩
  · exact toPeer_eq env ids henv hmax h.sending h.arrived (by omega) h.size h.fits (by omega)
  · obtain ⟨v, resp, withLength, p', hout, hpart, hsent, hin, hleft, hlimit, hinclude⟩ :=
      peer_output (ids 0) .ok h.tlsOut h.pos (by omega) h.size (henv 0).1 h.fits
    refine ⟨p', resp, hout, ?_⟩
    exact toServer_eq _ _ (fun k => henv (k + 1)) hmax h.arrived hpart hsent (hin.trans h.tlsIn) (hleft.trans h.left)
      (by rw [hlimit]; exact h.size) (by rw [hlimit, hinclude]; exact h.fits) (by omega)

def tenOctets : Octets := List.replicate 10 7

theorem message_reassembled_ten :
    (toPeer false 10 (fun _ => {}) (fun _ => 3) { tlsOut := some tenOctets, tlsOutLimit := 6 }
        { tlsOutLimit := 1 }).Delivered tenOctets ∧
      ∃ p' resp, Peer.processOutput {} { tlsOut := some tenOctets, tlsOutLimit := 1 } eapTypeTls 0 3 .ok =
          { data := p', res := .ok, msg := some resp } ∧
        (toServer false 10 (fun _ => {}) (fun _ => 3) { tlsOutLimit := 6 } p' resp).Delivered tenOctets := by
  have henv : Allocates fun _ => {} := fun _ => ⟨rfl, rfl⟩
  have hserver : ServerSends { tlsOut := some tenOctets, tlsOutLimit := 6 } { tlsOutLimit := 1 } tenOctets :=
    ⟨⟨rfl, rfl, rfl, rfl⟩, ⟨rfl, rfl, rfl⟩, by decide, by decide⟩
  have hpeer : PeerSends { tlsOutLimit := 6 } { tlsOut := some tenOctets, tlsOutLimit := 1 } tenOctets :=
    ⟨rfl, rfl, ⟨rfl, rfl⟩, rfl, rfl, by decide, by decide⟩
  refine ⟨((message_reassembled _ _ false _ _ tenOctets henv (by decide) (by decide)).1 hserver).1, ?_⟩
  obtain ⟨p', resp, hout, hdelivered, -, -⟩ :=
    (message_reassembled _ (fun _ => 3) false _ _ tenOctets henv (by decide) (by decide)).2 hpeer
  exact ⟨p', resp, hout, hdelivered⟩

theorem invalid_lost {msg : Octets} (hlen : msg.length = 65532) (fuel : ℕ) :
    (toPeer false (fuel + 1) (fun _ => {}) (fun _ => 3) { tlsOut := some msg, tlsOutLimit := 65533 }
      { tlsOutLimit := 1398 }).handed = [] := by
  have hsending : SSending { tlsOut := some msg, tlsOutLimit := 65533 } msg 0 := ⟨rfl, rfl, rfl, rfl⟩
  have hbuild : Server.buildReq {} { tlsOut := some msg, tlsOutLimit := 65533 } 3 = _ :=
    server_last 3 hsending (Nat.zero_le _) rfl (by rw [hlen])
  have hinvalid : eapHdrValidate eapTypeTls (eapMsg eapTypeTls eapCodeRequest 3 (0 :: msg.drop 0)) = none := by
    rw [eapHdrValidate_eq]
    simp [hlen]
  have hpeer : Peer.process {} { tlsOutLimit := 1398 }
      (eapMsg eapTypeTls eapCodeRequest 3 (0 :: msg.drop 0)) = ({ tlsOutLimit := 1398 }, none, []) := by
    simp only [Peer.process, Peer.processInit, hinvalid]
    rfl
  unfold toPeer
  simp only [hbuild, hpeer]
  rfl

def longMsg : Octets := List.replicate 65532 0

theorem long_message_lost :
    1 ≤ longMsg.length ∧ longMsg.length ≤ 65536 ∧
      (toPeer false 65536 (fun _ => {}) (fun _ => 3) { tlsOut := some longMsg, tlsOutLimit := 65533 }
        { tlsOutLimit := 1398 }).handed = [] := by
  have hlen : longMsg.length = 65532 := List.length_replicate
  exact ⟨by omega, by omega, invalid_lost hlen 65535⟩

end WpaSupplicant.EapTls
