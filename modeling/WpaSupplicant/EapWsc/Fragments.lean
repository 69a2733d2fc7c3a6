import WpaSupplicant.EapWsc
import WpaSupplicant.Lib.Machine

namespace WpaSupplicant.EapWsc

open Lib.Octets Lib.Machine

section Header

variable {code id : UInt8} {payload : Octets}

theorem length_eapMsg : (eapMsg code id payload).length = 12 + payload.length := by
  simp [eapMsg]
  omega

theorem eapGetId_eapMsg : eapGetId (eapMsg code id payload) = id := by
  have hlen : (eapMsg code id payload).length = 12 + payload.length := length_eapMsg
  have hlong : ¬(eapMsg code id payload).length < 4 := by omega
  unfold eapGetId
  rw [if_neg hlong]
  rfl

theorem drop_eapMsg : (eapMsg code id payload).drop 12 = payload := by
  have hhead : ([code, id] ++ toBE 2 (12 + payload.length) ++ [eapTypeExpanded] ++
    toBE 3 eapVendorWfa ++ toBE 4 eapVendorTypeWsc).length = 12 := by simp
  exact List.drop_left' hhead

theorem length_field : ofBE (((eapMsg code id payload).drop 2).take 2) = (12 + payload.length) % 65536 := by
  have hfield : ((eapMsg code id payload).drop 2).take 2 = toBE 2 (12 + payload.length) := by
    simp [eapMsg]
  rw [hfield, ofBE_toBE]
  rfl

-- A payload is found again where the length of the packet fits into its field, and otherwise the packet is
-- invalid or cut.
theorem eapHdrValidate_eapMsg (h : 12 + payload.length < 65536) :
    eapHdrValidate (eapMsg code id payload) = some payload := by
  have hlen : (eapMsg code id payload).length = 12 + payload.length := length_eapMsg
  have hfield : ofBE (((eapMsg code id payload).drop 2).take 2) = 12 + payload.length := by
    rw [length_field, Nat.mod_eq_of_lt h]
  have htype : (eapMsg code id payload)[4]? = some eapTypeExpanded := by simp [eapMsg, toBE]
  have hvendor : ofBE (((eapMsg code id payload).drop 5).take 3) = eapVendorWfa := by
    simp [eapMsg, toBE, ofBE, eapVendorWfa]
  have hwsc : ofBE (((eapMsg code id payload).drop 8).take 4) = eapVendorTypeWsc := by
    simp [eapMsg, toBE, ofBE, eapVendorTypeWsc]
  unfold eapHdrValidate
  simp only [hlen, hfield, htype, hvendor, hwsc, drop_eapMsg]
  rw [if_neg (by omega), if_neg (by omega), if_neg (by simp), if_neg (by omega), if_neg (by simp)]
  simp

theorem eapHdrValidate_overflow (h : 65536 ≤ 12 + payload.length) (h' : payload.length < 65536) :
    eapHdrValidate (eapMsg code id payload) = none := by
  have hlen : (eapMsg code id payload).length = 12 + payload.length := length_eapMsg
  have hfield : ofBE (((eapMsg code id payload).drop 2).take 2) = payload.length - 65524 := by
    rw [length_field]
    omega
  have hshort : payload.length - 65524 < 12 := by omega
  unfold eapHdrValidate
  simp only [hlen, hfield, if_pos hshort]
  split
  · rfl
  split
  · rfl
  · split <;> rfl

end Header

section Fragment

variable {code id opCode : UInt8} {data : Data} {msg : Octets} {env : Env} {p : Packet} {u n : ℕ}

-- A message of which the first `u` octets are sent
structure Sending (data : Data) (opCode : UInt8) (msg : Octets) (u : ℕ) : Prop where
  outBuf : data.outBuf = some msg
  outOpCode : data.outOpCode = opCode
  outUsed : data.outUsed = u

-- A message of which the first `u` octets have arrived
def Arrived (data : Data) (opCode : UInt8) (msg : Octets) (u : ℕ) : Prop :=
  if u = 0 then data.inBuf = none
  else data.inBuf = some ⟨msg.length, msg.take u⟩ ∧ data.inOpCode = opCode

-- The sizes for which the EAP packets fit into their length field
def Fits (fragmentSize : ℕ) (msg : Octets) : Prop := min (msg.length + 2) fragmentSize + 12 ≤ 65535

def IsMsgOpCode (opCode : UInt8) : Prop := opCode ∈ [wscAck, wscNack, wscMsg, wscDone]

-- The fragment after `u` octets is the last one, the first one of several, or one in between.
theorem nextFragment_cases (msg : Octets) (hu : data.outUsed = u) :
    (2 + (msg.length - u) ≤ data.fragmentSize ∧ nextFragment data msg = (0, msg.length - u)) ∨
    (data.fragmentSize < 2 + (msg.length - u) ∧ u = 0 ∧
      nextFragment data msg = (flagsMf ||| flagsLf, data.fragmentSize - 4)) ∨
    (data.fragmentSize < 2 + (msg.length - u) ∧ u ≠ 0 ∧
      nextFragment data msg = (flagsMf, data.fragmentSize - 2)) := by
  unfold nextFragment
  simp only [hu]
  by_cases hmore : data.fragmentSize < 2 + (msg.length - u)
  · right
    rw [if_pos hmore]
    by_cases h0 : u = 0
    · left
      rw [if_pos h0]
      exact ⟨hmore, h0, by rw [Nat.sub_sub]⟩
    · right
      rw [if_neg h0]
      exact ⟨hmore, h0, rfl⟩
  · left
    rw [if_neg hmore]
    exact ⟨Nat.le_of_not_lt hmore, rfl⟩

theorem parsePacket_last (hdata : Sending data opCode msg u)
    (hf : nextFragment data msg = (0, msg.length - u)) (hfits : Fits data.fragmentSize msg)
    (hlast : 2 + (msg.length - u) ≤ data.fragmentSize) :
    parsePacket (eapMsg code id (fragmentPayload data msg)) = some ⟨opCode, 0, 0, msg.drop u⟩ := by
  have htake : (msg.drop u).take (msg.length - u) = msg.drop u := by
    rw [List.take_of_length_le]
    simp
  have hpayload : fragmentPayload data msg = opCode :: 0 :: msg.drop u := by
    simp [fragmentPayload, hf, hdata.outOpCode, hdata.outUsed, htake]
  have hlen : 12 + (opCode :: 0 :: msg.drop u).length < 65536 := by
    unfold Fits at hfits
    simp only [List.length_cons, List.length_drop]
    omega
  unfold parsePacket
  rw [hpayload, eapHdrValidate_eapMsg hlen]
  simp

theorem parsePacket_first (hdata : Sending data opCode msg 0)
    (hf : nextFragment data msg = (flagsMf ||| flagsLf, data.fragmentSize - 4))
    (hfits : Fits data.fragmentSize msg) (hmsg : msg.length ≤ 65535) (hsize : 5 ≤ data.fragmentSize)
    (hmore : data.fragmentSize < 2 + msg.length) :
    parsePacket (eapMsg code id (fragmentPayload data msg)) =
      some ⟨opCode, flagsMf ||| flagsLf, msg.length, msg.take (data.fragmentSize - 4)⟩ := by
  have hpayload : fragmentPayload data msg = opCode :: (flagsMf ||| flagsLf) ::
      (toBE 2 msg.length ++ msg.take (data.fragmentSize - 4)) := by
    have hlf : (flagsMf ||| flagsLf) &&& flagsLf ≠ 0 := by decide
    simp [fragmentPayload, hf, hdata.outOpCode, hdata.outUsed, hlf]
  have hlen : 12 + (opCode :: (flagsMf ||| flagsLf) ::
      (toBE 2 msg.length ++ msg.take (data.fragmentSize - 4))).length < 65536 := by
    unfold Fits at hfits
    simp only [List.length_cons, List.length_append, length_toBE, List.length_take]
    omega
  have hfield : ofBE (toBE 2 msg.length) = msg.length := by
    rw [ofBE_toBE]
    exact Nat.mod_eq_of_lt (by omega)
  have htake : (toBE 2 msg.length ++ msg.take (data.fragmentSize - 4)).take 2 = toBE 2 msg.length :=
    List.take_left' (length_toBE 2 _)
  have hdrop : (toBE 2 msg.length ++ msg.take (data.fragmentSize - 4)).drop 2 =
      msg.take (data.fragmentSize - 4) := List.drop_left' (length_toBE 2 _)
  have hlf : (flagsMf ||| flagsLf) &&& flagsLf ≠ 0 := by decide
  have hlong : ¬(toBE 2 msg.length ++ msg.take (data.fragmentSize - 4)).length < 2 := by
    simp only [List.length_append, length_toBE]
    omega
  have hannounced : ¬msg.length < (msg.take (data.fragmentSize - 4)).length := by
    rw [List.length_take]
    omega
  unfold parsePacket
  rw [hpayload, eapHdrValidate_eapMsg hlen]
  dsimp only
  rw [if_pos hlf, htake, hdrop, hfield, if_neg hlong, if_neg hannounced]

theorem parsePacket_middle (hdata : Sending data opCode msg u)
    (hf : nextFragment data msg = (flagsMf, data.fragmentSize - 2))
    (hfits : Fits data.fragmentSize msg) (hsize : 5 ≤ data.fragmentSize)
    (hmore : data.fragmentSize < 2 + (msg.length - u)) :
    parsePacket (eapMsg code id (fragmentPayload data msg)) =
      some ⟨opCode, flagsMf, 0, (msg.drop u).take (data.fragmentSize - 2)⟩ := by
  have hlf : ¬flagsMf &&& flagsLf ≠ 0 := by decide
  have hpayload : fragmentPayload data msg =
      opCode :: flagsMf :: (msg.drop u).take (data.fragmentSize - 2) := by
    simp only [fragmentPayload, hf, hdata.outOpCode, hdata.outUsed, if_neg hlf]
    rfl
  have hlen : 12 + (opCode :: flagsMf :: (msg.drop u).take (data.fragmentSize - 2)).length < 65536 := by
    unfold Fits at hfits
    simp only [List.length_cons, List.length_take, List.length_drop]
    omega
  unfold parsePacket
  rw [hpayload, eapHdrValidate_eapMsg hlen]
  dsimp only
  rw [if_neg hlf]

theorem parsePacket_fragAck : parsePacket (eapMsg code id [wscFragAck, 0]) = some ⟨wscFragAck, 0, 0, []⟩ := by
  have hlen : 12 + [wscFragAck, (0 : UInt8)].length < 65536 := by simp
  unfold parsePacket
  rw [eapHdrValidate_eapMsg hlen]
  simp

theorem arrived_last (h : Arrived data opCode msg u) (hu : u ≤ msg.length) (hop : p.opCode = opCode)
    (hd : p.data = msg.drop u) :
    ∃ data' calls, processPending data p = .ok (data', calls) ∧ handed calls = [] ∧
      completeMsg data' p = msg := by
  unfold Arrived at h
  split at h
  · rename_i h0
    subst h0
    exact ⟨data, [], by simp [processPending, h], rfl, by simp [completeMsg, h, hd]⟩
  obtain ⟨hbuf, hin⟩ := h
  have hroom : ¬(⟨msg.length, msg.take u⟩ : Wpabuf).tailroom < p.data.length := by
    simp only [Wpabuf.tailroom, List.length_take, hd, List.length_drop]
    omega
  refine ⟨{ data with inBuf := some ((⟨msg.length, msg.take u⟩ : Wpabuf).putData p.data) },
    [.put p.opCode p.data], ?_, rfl, ?_⟩
  · simp only [processPending, hbuf, processCont, hop, hin, ne_eq, not_true_eq_false, if_false,
      if_neg hroom]
  · simp [completeMsg, Wpabuf.putData, hd]

theorem arrived_more (h : Arrived data opCode msg u) (hun : u + n ≤ msg.length) (hop : p.opCode = opCode)
    (hd : p.data = (msg.drop u).take n)
    (hfirst : u = 0 → p.flags &&& flagsLf ≠ 0 ∧ p.messageLength = msg.length)
    (henv : env.allocIn = true) :
    ∃ data' calls calls', processPending data p = .ok (data', calls) ∧
      processFragment env data' p =
        some ({ data with inBuf := some ⟨msg.length, msg.take (u + n)⟩, inOpCode := opCode }, calls') ∧
      handed (calls ++ calls') = [] := by
  unfold Arrived at h
  split at h
  · rename_i h0
    subst h0
    obtain ⟨hlf, hlen⟩ := hfirst rfl
    refine ⟨data, [], [.alloc p.messageLength, .put p.opCode p.data], by simp [processPending, h], ?_, rfl⟩
    simp [processFragment, h, hlf, henv, hlen, hop, hd, Wpabuf.putData]
  · obtain ⟨hbuf, hin⟩ := h
    have hroom : ¬(⟨msg.length, msg.take u⟩ : Wpabuf).tailroom < p.data.length := by
      simp only [Wpabuf.tailroom, List.length_take, hd, List.length_drop]
      omega
    refine ⟨{ data with inBuf := some ((⟨msg.length, msg.take u⟩ : Wpabuf).putData p.data) },
      [.put p.opCode p.data], [], ?_, ?_, rfl⟩
    · simp only [processPending, hbuf, processCont, hop, hin, ne_eq, not_true_eq_false, if_false,
        if_neg hroom]
    · simp only [processFragment, Wpabuf.putData, hd, List.take_add, hin]

end Fragment

section Steps

variable {code id opCode : UInt8} {data : Data} {msg : Octets} {env : Env} {p : Packet} {u n : ℕ}

theorem handed_append (l l' : List Call) : handed (l ++ l') = handed l ++ handed l' := by
  induction l with
  | nil => rfl
  | cons x l ih => cases x <;> simp [handed, ih]

theorem IsMsgOpCode.mem (h : IsMsgOpCode opCode) :
    opCode ∈ [wscAck, wscNack, wscMsg, wscDone] ∧
      opCode ∈ [wscAck, wscNack, wscMsg, wscDone, wscStart] ∧ opCode ≠ wscStart := by
  unfold IsMsgOpCode at h
  refine ⟨h, ?_, ?_⟩
  · simp only [List.mem_cons, List.not_mem_nil, or_false] at h ⊢
    tauto
  · rintro rfl
    revert h
    decide

theorem buildMsg_last {peer : Bool} (hdata : Sending data opCode msg u) (hu : u ≤ msg.length)
    (henv : env.allocMsg = true) (hf : nextFragment data msg = (0, msg.length - u)) :
    buildMsg peer env data id =
      ({ data with outBuf := none, outUsed := 0, state := sentState peer data },
        some (eapMsg (if peer then eapCodeResponse else eapCodeRequest) id (fragmentPayload data msg))) := by
  have hall : data.outUsed + (msg.length - u) = msg.length := by
    rw [hdata.outUsed]
    omega
  simp only [buildMsg, hdata.outBuf, henv, Bool.not_true, Bool.false_eq_true, if_false, hf, if_pos hall]

theorem buildMsg_more {peer : Bool} {flags : UInt8} (hdata : Sending data opCode msg u)
    (henv : env.allocMsg = true) (hf : nextFragment data msg = (flags, n))
    (hmore : u + n < msg.length) :
    buildMsg peer env data id =
      ({ data with outUsed := u + n, state := .waitFragAck },
        some (eapMsg (if peer then eapCodeResponse else eapCodeRequest) id (fragmentPayload data msg))) := by
  have hnot : ¬u + n = msg.length := by omega
  simp only [buildMsg, hdata.outBuf, henv, Bool.not_true, Bool.false_eq_true, if_false, hf,
    hdata.outUsed, if_neg hnot]

theorem buildMsg_isSome {peer : Bool} (hdata : Sending data opCode msg u) (henv : env.allocMsg = true) :
    ∃ out, (buildMsg peer env data id).2 = some out := by
  unfold buildMsg
  simp only [hdata.outBuf, henv, Bool.not_true, Bool.false_eq_true, if_false]
  split
  · exact ⟨_, rfl⟩
  · exact ⟨_, rfl⟩

theorem buildReq_mesg (hstate : data.state = .mesg) (hdata : Sending data opCode msg u) :
    Server.buildReq env data id = buildMsg false env data id := by
  simp only [Server.buildReq, hstate, loadMsg, hdata.outBuf]

theorem peer_process_eq {req : Octets} (hstate : data.state = .mesg) (hop : IsMsgOpCode p.opCode)
    (hparse : parsePacket req = some p) :
    Peer.process env data req = Peer.processMessage env data (eapGetId req) p := by
  obtain ⟨-, hmem, hne⟩ := hop.mem
  simp only [Peer.process, hparse, hstate, reduceCtorEq, if_false, hmem, not_true_eq_false, hne]

theorem peer_sendMsg_calls {calls : List Call} : (Peer.sendMsg env data id calls).calls = calls := by
  unfold Peer.sendMsg
  split <;> rfl

theorem peer_last {req : Octets} (hstate : data.state = .mesg) (hop : IsMsgOpCode opCode)
    (harrived : Arrived data opCode msg u) (hu : u ≤ msg.length)
    (hparse : parsePacket req = some ⟨opCode, 0, 0, msg.drop u⟩) :
    handed (Peer.process env data req).calls = [(opCode, msg)] := by
  obtain ⟨data', calls, hpending, hcalls, hcomplete⟩ :=
    arrived_last (p := ⟨opCode, 0, 0, msg.drop u⟩) harrived hu rfl rfl
  have hmf : ¬(0 : UInt8) &&& flagsMf ≠ 0 := by decide
  rw [peer_process_eq hstate hop hparse]
  simp only [Peer.processMessage, hpending, if_neg hmf, peer_sendMsg_calls]
  rw [handed_append, hcalls, hcomplete]
  rfl

theorem peer_more {req : Octets} (hstate : data.state = .mesg) (hop : IsMsgOpCode opCode)
    (harrived : Arrived data opCode msg u) (hun : u + n ≤ msg.length)
    (hparse : parsePacket req = some p) (hpop : p.opCode = opCode)
    (hd : p.data = (msg.drop u).take n) (hmf : p.flags &&& flagsMf ≠ 0)
    (hfirst : u = 0 → p.flags &&& flagsLf ≠ 0 ∧ p.messageLength = msg.length)
    (hin : env.allocIn = true) (hout : env.allocMsg = true) :
    handed (Peer.process env data req).calls = [] ∧
      (Peer.process env data req).resp = some (eapMsg eapCodeResponse (eapGetId req) [wscFragAck, 0]) ∧
      (Peer.process env data req).data =
        { data with inBuf := some ⟨msg.length, msg.take (u + n)⟩, inOpCode := opCode } := by
  obtain ⟨data', calls, calls', hpending, hfragment, hcalls⟩ :=
    arrived_more harrived hun hpop hd hfirst hin
  rw [peer_process_eq hstate (hpop ▸ hop) hparse]
  simp only [Peer.processMessage, hpending, if_pos hmf, hfragment, buildFragAck, hout, if_true]
  exact ⟨hcalls, trivial, trivial⟩

theorem server_process_eq {resp : Octets} (htimeout : data.extRegTimeout = false)
    (hstate : data.state ≠ .waitFragAck) (hop : IsMsgOpCode p.opCode)
    (hparse : parsePacket resp = some p) :
    Server.process env data resp = Server.processMessage env data p := by
  obtain ⟨hmem, -, -⟩ := hop.mem
  simp only [Server.process, htimeout, Bool.false_eq_true, if_false, hparse, hstate, hmem,
    not_true_eq_false]

theorem server_last {resp : Octets} (htimeout : data.extRegTimeout = false)
    (hstate : data.state ≠ .waitFragAck) (hop : IsMsgOpCode opCode)
    (harrived : Arrived data opCode msg u) (hu : u ≤ msg.length)
    (hparse : parsePacket resp = some ⟨opCode, 0, 0, msg.drop u⟩) :
    handed (Server.process env data resp).2 = [(opCode, msg)] := by
  obtain ⟨data', calls, hpending, hcalls, hcomplete⟩ :=
    arrived_last (p := ⟨opCode, 0, 0, msg.drop u⟩) harrived hu rfl rfl
  have hmf : ¬(0 : UInt8) &&& flagsMf ≠ 0 := by decide
  rw [server_process_eq htimeout hstate hop hparse]
  simp only [Server.processMessage, hpending, if_neg hmf]
  rw [handed_append, hcalls, hcomplete]
  rfl

theorem server_more {resp : Octets} (htimeout : data.extRegTimeout = false)
    (hstate : data.state ≠ .waitFragAck) (hop : IsMsgOpCode opCode)
    (harrived : Arrived data opCode msg u) (hun : u + n ≤ msg.length)
    (hparse : parsePacket resp = some p) (hpop : p.opCode = opCode)
    (hd : p.data = (msg.drop u).take n) (hmf : p.flags &&& flagsMf ≠ 0)
    (hfirst : u = 0 → p.flags &&& flagsLf ≠ 0 ∧ p.messageLength = msg.length)
    (hin : env.allocIn = true) :
    handed (Server.process env data resp).2 = [] ∧
      (Server.process env data resp).1 =
        { data with inBuf := some ⟨msg.length, msg.take (u + n)⟩, inOpCode := opCode, state := .fragAck } := by
  obtain ⟨data', calls, calls', hpending, hfragment, hcalls⟩ :=
    arrived_more harrived hun hpop hd hfirst hin
  rw [server_process_eq htimeout hstate (hpop ▸ hop) hparse]
  simp only [Server.processMessage, hpending, if_pos hmf, hfragment]
  exact ⟨hcalls, trivial⟩

theorem server_fragAck (htimeout : data.extRegTimeout = false) (hstate : data.state = .waitFragAck) :
    (Server.process env data (eapMsg code id [wscFragAck, 0])).1 = { data with state := .mesg } := by
  simp only [Server.process, htimeout, Bool.false_eq_true, if_false, parsePacket_fragAck, hstate, if_true,
    ne_eq, not_true_eq_false]

theorem peer_fragAck (env : Env) (code id : UInt8) (hstate : data.state = .waitFragAck) :
    (Peer.process env data (eapMsg code id [wscFragAck, 0])).data =
        (buildMsg true env { data with state := .mesg } id).1 ∧
      (Peer.process env data (eapMsg code id [wscFragAck, 0])).resp =
        (buildMsg true env { data with state := .mesg } id).2 := by
  simp only [Peer.process, parsePacket_fragAck, hstate, if_true, ne_eq, not_true_eq_false, if_false,
    eapGetId_eapMsg]
  exact ⟨trivial, trivial⟩

end Steps

end WpaSupplicant.EapWsc
