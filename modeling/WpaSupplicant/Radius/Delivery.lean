import WpaSupplicant.Radius.KeyTransport

namespace WpaSupplicant.Radius.Keys

open Lib.Octets Lib.Buffer Lib.Allocated Lib.Reads

section Lookup

variable {buf pre post : Octets} {subtype : ℕ} {c : Crypto} {auth secret : Octets}

theorem getVendorAttr_others {l : List Attr} (vendor subtype : ℕ) (hbuf : buf = pre ++ encodeAttrs l ++ post)
    (hnone : ∀ a ∈ l, a.type ≠ attrVendorSpecific) :
    getVendorAttr buf vendor subtype (positions pre.length l) = some none := by
  induction l generalizing pre with
  | nil => rfl
  | cons a l ih =>
    have hread : readBE buf pre.length 1 = some a.type.toNat := by
      have hsplit : buf = pre ++ [a.type] ++
          ([UInt8.ofNat (2 + a.data.length)] ++ a.data ++ encodeAttrs l ++ post) := by
        rw [hbuf, encodeAttrs_cons, encodeAttr]
        simp only [List.append_assoc, List.cons_append, List.nil_append]
      rw [readBE_split (n := 1) hsplit rfl rfl]
      simp [ofBE]
    have hother : a.type.toNat ≠ attrVendorSpecific.toNat := fun h =>
      hnone a List.mem_cons_self (UInt8.toNat_inj.1 h)
    have hbuf' : buf = pre ++ encodeAttr a ++ encodeAttrs l ++ post := by
      rw [hbuf, encodeAttrs_cons]
      simp only [List.append_assoc]
    have hrest := ih hbuf' fun b hb => hnone b (List.mem_cons_of_mem _ hb)
    rw [List.length_append, length_encodeAttr] at hrest
    rw [positions, getVendorAttr, hread, Option.bind_some, if_pos hother, hrest]

-- Attributes behind a key do not hide it.
theorem getMsKey_concat {l rest : List ℕ} {key : Octets}
    (h : getMsKey c ⟨buf, l⟩ auth secret subtype = some (some key)) :
    getMsKey c ⟨buf, l ++ rest⟩ auth secret subtype = some (some key) := by
  obtain ⟨data, hdata, hkey⟩ := Option.bind_eq_some_iff.1 h
  rw [getMsKey, getVendorAttr_concat, hdata]
  cases data with
  | none => cases hkey
  | some data => exact hkey

theorem getMsKeys_concat {l rest : List ℕ} {send recv : Octets}
    (h : getMsKeys c ⟨buf, l⟩ auth secret = some ⟨some send, some recv⟩) :
    getMsKeys c ⟨buf, l ++ rest⟩ auth secret = some ⟨some send, some recv⟩ := by
  obtain ⟨s, hs, h⟩ := Option.bind_eq_some_iff.1 h
  obtain ⟨r, hr, h⟩ := Option.map_eq_some_iff.1 h
  cases h
  rw [getMsKeys, getMsKey_concat hs, Option.bind_some, getMsKey_concat hr]
  rfl

end Lookup

section Server

variable {c : Crypto} {env : Env} {msg m : Msg} {auth secret : Octets} {send recv : Key}

theorem mppeAttr_added {alloc : Alloc} {vendorType saltNum room : ℕ} {key data : Octets} (hshort : key.length < 256)
    (hdata : mppeAttr c vendorType key auth secret saltNum (8 + room) = some data)
    (hok : (msg.addAttr alloc attrVendorSpecific data).2 = true) :
    ∃ k, 1 + key.length ≤ md5MacLen * k ∧ md5MacLen * k ≤ 240 ∧
      data = msAttr c vendorType key auth secret saltNum k := by
  have hfits : KeyFits key.length room := by
    by_contra hnot
    rw [mppeAttr_none hnot] at hdata
    cases hdata
  obtain ⟨x, hx, hlen⟩ := returns_mppeAttr c vendorType auth secret saltNum hfits
  rw [hx] at hdata
  cases hdata
  have hmax := (addAttr_true hok).1
  obtain ⟨k, hpad, hk, hk'⟩ := padLen_short (short_of_added hshort (by omega))
  have hroom := hfits.padded
  rw [mppeAttr_short hpad hk (by omega)] at hx
  exact ⟨k, hk, hk', (Option.some.inj hx).symm⟩

theorem addMppeKeys_true (hshort : send.val.length < 256 ∧ recv.val.length < 256)
    (h : addMppeKeys c env msg auth secret send.val recv.val = some (m, true)) :
    ∃ d₁ d₂ saltNum ks kr, 1 + send.val.length ≤ md5MacLen * ks ∧ md5MacLen * ks ≤ 240 ∧
      1 + recv.val.length ≤ md5MacLen * kr ∧ md5MacLen * kr ≤ 240 ∧
      d₁ = msAttr c vendorAttrMsMppeSendKey send.val auth secret saltNum ks ∧
      d₂ = msAttr c vendorAttrMsMppeRecvKey recv.val auth secret (saltNum ^^^ 1) kr ∧
      runOps msg [.attr env.sendAttr attrVendorSpecific d₁, .attr env.recvAttr attrVendorSpecific d₂] = (m, true) := by
  rw [addMppeKeys, Nat.add_assoc] at h
  dsimp only at h
  split at h
  · cases h
  obtain ⟨d₁, hd₁, h⟩ := Option.bind_eq_some_iff.1 h
  by_cases hok : (msg.addAttr env.sendAttr attrVendorSpecific d₁).2 = true
  · rw [hok, Bool.not_true, if_neg Bool.false_ne_true] at h
    split at h
    · cases h
    obtain ⟨d₂, hd₂, h⟩ := Option.map_eq_some_iff.1 h
    obtain ⟨ks, hks, hks', hsend⟩ := mppeAttr_added hshort.1 hd₁ hok
    obtain ⟨kr, hkr, hkr', hrecv⟩ := mppeAttr_added hshort.2 hd₂ (congrArg Prod.snd h)
    refine ⟨d₁, d₂, _, ks, kr, hks, hks', hkr, hkr', hsend, hrecv, ?_⟩
    simp [runOps, Op.run, hok, h]
  · rw [Bool.eq_false_of_not_eq_true hok] at h
    exact absurd (congrArg Prod.snd (Option.some.inj h)) hok

end Server

section Main

-- The keys are found behind attributes of other types.
theorem Holds.getMsKeys {c : Crypto} {msg : Msg} {code id : UInt8} {len ks kr saltNum : ℕ}
    {resp auth secret send recv d₁ d₂ : Octets} {old rest : List Attr}
    (h : Holds msg code id len resp (old ++ [⟨attrVendorSpecific, d₁⟩, ⟨attrVendorSpecific, d₂⟩] ++ rest))
    (hold : ∀ a ∈ old, a.type ≠ attrVendorSpecific)
    (hs : 0 < send.length ∧ send.length < 256 ∧ 1 + send.length ≤ md5MacLen * ks ∧ md5MacLen * ks ≤ 240)
    (hr : 0 < recv.length ∧ recv.length < 256 ∧ 1 + recv.length ≤ md5MacLen * kr ∧ md5MacLen * kr ≤ 240)
    (hd₁ : d₁ = msAttr c vendorAttrMsMppeSendKey send auth secret saltNum ks)
    (hd₂ : d₂ = msAttr c vendorAttrMsMppeRecvKey recv auth secret (saltNum ^^^ 1) kr) :
    Keys.getMsKeys c msg auth secret = some ⟨some send, some recv⟩ := by
  have hhdr := h.length_hdr
  have hsplit : msg.buf = encodeHdr code id len resp ++ encodeAttrs old ++
      encodeAttrs ([⟨attrVendorSpecific, d₁⟩, ⟨attrVendorSpecific, d₂⟩] ++ rest) := by
    rw [h.buf, List.append_assoc old, encodeAttrs_append, List.append_assoc]
  have hbuf : msg.buf = encodeHdr code id len resp ++ encodeAttrs old ++ encodeAttr ⟨attrVendorSpecific, d₁⟩ ++
      encodeAttr ⟨attrVendorSpecific, d₂⟩ ++ encodeAttrs rest := by
    rw [hsplit]
    simp only [List.cons_append, List.nil_append, encodeAttrs_cons, List.append_assoc]
  have hfirst : (encodeHdr code id len resp ++ encodeAttrs old).length = hdrSize + (encodeAttrs old).length := by
    rw [List.length_append, hhdr]
  have hsecond : (encodeHdr code id len resp ++ encodeAttrs old ++ encodeAttr ⟨attrVendorSpecific, d₁⟩).length =
      hdrSize + (encodeAttrs old).length + (2 + d₁.length) := by
    rw [List.length_append, hfirst, length_encodeAttr]
  have hpos : msg.attrPos = positions hdrSize old ++
      [(encodeHdr code id len resp ++ encodeAttrs old).length,
        (encodeHdr code id len resp ++ encodeAttrs old ++ encodeAttr ⟨attrVendorSpecific, d₁⟩).length] ++
      positions (hdrSize + (encodeAttrs (old ++ [⟨attrVendorSpecific, d₁⟩, ⟨attrVendorSpecific, d₂⟩])).length) rest := by
    rw [h.attrPos, positions_append, positions_append, hfirst, hsecond]
    rfl
  have hothers : ∀ t ∈ [vendorAttrMsMppeSendKey, vendorAttrMsMppeRecvKey],
      getVendorAttr msg.buf vendorIdMicrosoft t (positions hdrSize old) = some none := by
    intro t _
    have hnone := getVendorAttr_others vendorIdMicrosoft t hsplit hold
    rwa [hhdr] at hnone
  have htwo := getMsKeys_two (positions hdrSize old) hs hr hd₁ hd₂ hbuf hothers
  change Keys.getMsKeys c ⟨msg.buf, msg.attrPos⟩ auth secret = _
  rw [hpos]
  exact getMsKeys_concat htwo

-- A response that the server has built and finished is parsed and verified by the client that sent the request, and
-- the client gets the two keys out of it.
theorem response_delivers_keys (c : Crypto) (env : Env) (alloc : Alloc) (code id : UInt8) (secret : Octets)
    (before after : List Op) (send recv : Key) (req : Msg) {built keyed full sent : Msg}
    (hreq : req.authenticator.length = md5MacLen)
    (hnoAuth : ∀ op ∈ before ++ after, op.NoType attrMessageAuthenticator)
    (hnoVendor : ∀ op ∈ before, op.NoType attrVendorSpecific)
    (hshort : send.val.length < 256 ∧ recv.val.length < 256)
    (hbefore : runOps (Msg.new code id) before = (built, true))
    (hkeys : addMppeKeys c env built req.authenticator secret send.val recv.val = some (keyed, true))
    (hafter : runOps keyed after = (full, true))
    (hsent : full.finishSrv c alloc secret req.authenticator = (sent, true)) :
    ∃ msg, Msg.parse sent.buf = some msg ∧ msg.verify c secret req true = true ∧
      getMsKeys c msg req.authenticator secret = some ⟨some send.val, some recv.val⟩ := by
  obtain ⟨d₁, d₂, saltNum, ks, kr, hks, hks', hkr, hkr', hd₁, hd₂, hadded⟩ := addMppeKeys_true hshort hkeys
  have hnew : Holds (Msg.new code id) code id 0 (List.replicate md5MacLen 0) [] :=
    holds_new (List.length_replicate ..)
  have hbuilt := hnew.runOps (congrArg Prod.snd hbefore)
  rw [hbefore] at hbuilt
  have hkeyed := hbuilt.runOps (congrArg Prod.snd hadded)
  rw [hadded] at hkeyed
  have hfull := hkeyed.runOps (congrArg Prod.snd hafter)
  rw [hafter] at hfull
  obtain ⟨mac, resp, hmac, hresp, hfinish, hauth, hmax⟩ := hfull.finishSrv hreq (congrArg Prod.snd hsent)
  rw [hsent] at hfinish
  have hlen : mac.length = md5MacLen := by rw [hmac, c.length_hmacMd5]
  have htotal := hfinish.length_addMsgAuth hlen hfull.length_buf
  have hnone : ∀ a ∈ [] ++ before.flatMap Op.attrs ++ [⟨attrVendorSpecific, d₁⟩, ⟨attrVendorSpecific, d₂⟩] ++
      after.flatMap Op.attrs, a.type ≠ attrMessageAuthenticator := by
    intro a ha
    have hops := noMsgAuth_ops hnoAuth
    simp only [List.flatMap_append, List.mem_append, List.mem_cons, List.not_mem_nil, or_false, false_or] at hops ha
    have hvendor : attrVendorSpecific ≠ attrMessageAuthenticator := by decide
    rcases ha with (ha | rfl | rfl) | ha
    · exact hops a (.inl ha)
    · exact hvendor
    · exact hvendor
    · exact hops a (.inr ha)
  refine ⟨sent, hfinish.parse htotal.symm (by omega), ?_, ?_⟩
  · have hsome : ∀ a ∈ some req.authenticator, a.length = md5MacLen := by simpa using hreq
    unfold Msg.verify
    rw [hfinish.verifyMsgAuth hnone hlen hsome, hfinish.responseAuth, hfinish.authenticator_eq]
    simp [hmac, hauth]
  · rw [List.append_assoc] at hfinish
    exact Holds.getMsKeys hfinish (noType_ops (by decide) hnoVendor) ⟨send.property, hshort.1, hks, hks'⟩
      ⟨recv.property, hshort.2, hkr, hkr'⟩ hd₁ hd₂

-- Digests that depend on every octet, and keys of two lengths
def sumCrypto : Crypto where
  hmacMd5 := fun key msg => List.replicate md5MacLen (key.foldl (· + ·) (msg.foldl (· + ·) 5))
  md5 := fun msg => List.replicate md5MacLen (msg.foldl (· + ·) 3)
  length_hmacMd5 := fun _ _ => List.length_replicate ..
  length_md5 := fun _ => List.length_replicate ..

def sendKey : Key := ⟨List.replicate 32 1, by decide⟩
def recvKey : Key := ⟨List.replicate 16 2, by decide⟩
def sampleRequest : Msg := Msg.new codeAccessRequest 7

def sendBlocks : List Octets := [32 :: List.replicate 15 1, List.replicate 16 1, 1 :: List.replicate 15 0]
def recvBlocks : List Octets := [16 :: List.replicate 15 2, 2 :: List.replicate 15 0]

def keyAttr (vendorType saltNum : ℕ) (blocks : List Octets) : Octets :=
  toBE 4 vendorIdMicrosoft ++ [UInt8.ofNat vendorType, UInt8.ofNat (4 + md5MacLen * blocks.length)] ++
    (toBE 2 saltNum ++ (Lib.Feedback.forward (mask sumCrypto [115]) withMask
      (sumCrypto.md5 ([115] ++ sampleRequest.authenticator ++ toBE 2 saltNum)) blocks).flatten)

def successAccept : Msg := (runOps (Msg.new codeAccessAccept 7) [.eap {} [3, 7, 0, 4]]).1

def keyedAccept : Msg :=
  (runOps successAccept [.attr {} attrVendorSpecific (keyAttr vendorAttrMsMppeSendKey 0x8000 sendBlocks),
    .attr {} attrVendorSpecific (keyAttr vendorAttrMsMppeRecvKey 0x8001 recvBlocks)]).1

def fullAccept : Msg := (runOps keyedAccept [.attr {} attrSessionTimeout [0, 0, 14, 16]]).1

theorem addMppeKeys_accept :
    addMppeKeys sumCrypto {} successAccept sampleRequest.authenticator [115] sendKey.val recvKey.val =
      some (keyedAccept, true) := by
  have hsend : mppeAttr sumCrypto vendorAttrMsMppeSendKey sendKey.val sampleRequest.authenticator [115] 0x8000
      (8 + 48) = some (keyAttr vendorAttrMsMppeSendKey 0x8000 sendBlocks) := by
    rw [mppeAttr_short (k := 3) rfl (by decide) (by decide), msAttr, cipher, keyBlocks,
      pieces_cons (by decide) (by simp), pieces_cons (by decide) (by decide), pieces_cons (by decide) (by decide),
      pieces, if_pos (.inl rfl)]
    rfl
  have hrecv : mppeAttr sumCrypto vendorAttrMsMppeRecvKey recvKey.val sampleRequest.authenticator [115] 0x8001
      (8 + 48) = some (keyAttr vendorAttrMsMppeRecvKey 0x8001 recvBlocks) := by
    rw [mppeAttr_short (k := 2) rfl (by decide) (by decide), msAttr, cipher, keyBlocks,
      pieces_cons (by decide) (by simp), pieces_cons (by decide) (by decide), pieces, if_pos (.inl rfl)]
    rfl
  have hsalt : (({} : Env).random % 2 ^ 16 ||| 0x8000) = 0x8000 := by decide
  rw [addMppeKeys]
  dsimp only
  rw [Bool.not_true, if_neg Bool.false_ne_true, show 8 + sendKey.val.length + 16 = 8 + 48 from rfl, hsalt, hsend]
  rw [Option.bind_some, show (0x8000 ^^^ 1 : ℕ) = 0x8001 by decide, hrecv]
  rfl

set_option maxRecDepth 100000 in
theorem response_delivers_keys_accept :
    ∃ msg, Msg.parse (fullAccept.finishSrv sumCrypto {} [115] sampleRequest.authenticator).1.buf = some msg ∧
      msg.verify sumCrypto [115] sampleRequest true = true ∧
      getMsKeys sumCrypto msg sampleRequest.authenticator [115] = some ⟨some sendKey.val, some recvKey.val⟩ :=
  response_delivers_keys sumCrypto {} {} codeAccessAccept 7 [115] [.eap {} [3, 7, 0, 4]]
    [.attr {} attrSessionTimeout [0, 0, 14, 16]] sendKey recvKey sampleRequest rfl
    (by simp [Op.NoType, attrSessionTimeout, attrMessageAuthenticator])
    (by simp [Op.NoType]) ⟨by decide, by decide⟩
    (Prod.ext rfl (by decide +kernel)) addMppeKeys_accept (Prod.ext rfl (by decide +kernel))
    (Prod.ext rfl (by decide +kernel))

end Main

end WpaSupplicant.Radius.Keys
