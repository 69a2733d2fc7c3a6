import WpaSupplicant.Radius

namespace WpaSupplicant.Radius

open Lib.Octets Lib.Buffer

section Layout

def encodeAttr (a : Attr) : Octets := [a.type, UInt8.ofNat (2 + a.data.length)] ++ a.data

def encodeAttrs (l : List Attr) : Octets := l.flatMap encodeAttr

def positions : ℕ → List Attr → List ℕ
  | _, [] => []
  | start, a :: l => start :: positions (start + (2 + a.data.length)) l

variable {a : Attr} {l l' : List Attr} {pre post : Octets} {msg : Msg}

@[simp] theorem length_encodeAttr (a : Attr) : (encodeAttr a).length = 2 + a.data.length := by
  simp [encodeAttr]
  omega

@[simp] theorem encodeAttrs_nil : encodeAttrs [] = [] := rfl

theorem encodeAttrs_cons : encodeAttrs (a :: l) = encodeAttr a ++ encodeAttrs l := rfl

theorem encodeAttrs_append : encodeAttrs (l ++ l') = encodeAttrs l ++ encodeAttrs l' := by
  simp [encodeAttrs]

theorem positions_append (start : ℕ) :
    positions start (l ++ l') = positions start l ++ positions (start + (encodeAttrs l).length) l' := by
  induction l generalizing start with
  | nil => simp [positions]
  | cons a l ih =>
    simp only [List.cons_append, positions, ih, encodeAttrs_cons, List.length_append,
      length_encodeAttr, Nat.add_assoc]

theorem toNat_length (h : a.data.length ≤ maxAttrLen) :
    (UInt8.ofNat (2 + a.data.length)).toNat = 2 + a.data.length := by
  unfold maxAttrLen at h
  rw [UInt8.toNat_ofNat']
  omega

theorem attrAt_encodeAttr (hbuf : msg.buf = pre ++ encodeAttr a ++ post) (h : a.data.length ≤ maxAttrLen) :
    msg.attrAt pre.length = a := by
  have htype : msg.buf[pre.length]? = some a.type := by
    rw [hbuf]
    simp [encodeAttr]
  have hlen : msg.buf[pre.length + 1]? = some (UInt8.ofNat (2 + a.data.length)) := by
    rw [hbuf]
    simp [encodeAttr]
  have hdata : field msg.buf (pre.length + 2) a.data.length = a.data := by
    have hsplit : msg.buf =
        (pre ++ [a.type, UInt8.ofNat (2 + a.data.length)]) ++ a.data ++ post := by
      rw [hbuf]
      simp [encodeAttr]
    rw [hsplit]
    exact field_append (by simp) rfl
  unfold Msg.attrAt
  rw [htype, hlen]
  simp only [Option.getD_some, toNat_length h, Nat.add_sub_cancel_left, hdata]

theorem map_attrAt_positions (hbuf : msg.buf = pre ++ encodeAttrs l)
    (h : ∀ a ∈ l, a.data.length ≤ maxAttrLen) : (positions pre.length l).map msg.attrAt = l := by
  induction l generalizing pre with
  | nil => rfl
  | cons a l ih =>
    have hlen : a.data.length ≤ maxAttrLen := h a List.mem_cons_self
    have hhead : msg.buf = pre ++ encodeAttr a ++ encodeAttrs l := by
      rw [hbuf, encodeAttrs_cons, List.append_assoc]
    have hrest := ih hhead fun b hb => h b (List.mem_cons_of_mem a hb)
    rw [List.length_append, length_encodeAttr] at hrest
    rw [positions, List.map_cons, attrAt_encodeAttr hhead hlen, hrest]

theorem parseAttrs_encodeAttrs {fuel : ℕ} (start : ℕ) (h : ∀ a ∈ l, a.data.length ≤ maxAttrLen)
    (hfuel : (encodeAttrs l).length ≤ fuel) :
    Msg.parseAttrs fuel start (encodeAttrs l) = some (positions start l) := by
  induction l generalizing fuel start with
  | nil =>
    unfold Msg.parseAttrs
    rfl
  | cons a l ih =>
    have hlen := toNat_length (h a List.mem_cons_self)
    rw [encodeAttrs_cons, List.length_append, length_encodeAttr] at hfuel
    obtain ⟨fuel, rfl⟩ : ∃ k, fuel = k + 1 := ⟨fuel - 1, by omega⟩
    have hcons : encodeAttrs (a :: l) =
        a.type :: UInt8.ofNat (2 + a.data.length) :: (a.data ++ encodeAttrs l) := rfl
    have hdrop : (encodeAttrs (a :: l)).drop (2 + a.data.length) = encodeAttrs l := by
      rw [encodeAttrs_cons]
      exact List.drop_left' (length_encodeAttr a)
    have hroom : ¬((encodeAttrs (a :: l)).length < 2 + a.data.length ∨ 2 + a.data.length < 2) := by
      rw [encodeAttrs_cons, List.length_append, length_encodeAttr]
      omega
    have hrest := ih (start + (2 + a.data.length)) (fun b hb => h b (List.mem_cons_of_mem a hb))
      (by omega : (encodeAttrs l).length ≤ fuel)
    rw [hcons, Msg.parseAttrs, ← hcons, hlen, if_neg hroom, hdrop, hrest]
    rfl

end Layout

section Message

def encodeHdr (code identifier : UInt8) (length : ℕ) (authenticator : Octets) : Octets :=
  [code, identifier] ++ toBE 2 length ++ authenticator

-- A message with a header and attributes
structure Holds (msg : Msg) (code identifier : UInt8) (length : ℕ) (authenticator : Octets)
    (attrs : List Attr) : Prop where
  buf : msg.buf = encodeHdr code identifier length authenticator ++ encodeAttrs attrs
  attrPos : msg.attrPos = positions hdrSize attrs
  authenticator : authenticator.length = md5MacLen
  short : ∀ a ∈ attrs, a.data.length ≤ maxAttrLen

variable {msg : Msg} {code id type : UInt8} {len : ℕ} {auth auth' data : Octets} {attrs : List Attr}
  {alloc : Alloc}

theorem Holds.length_hdr (h : Holds msg code id len auth attrs) :
    (encodeHdr code id len auth).length = hdrSize := by
  simp [encodeHdr, h.authenticator, md5MacLen, hdrSize]

theorem Holds.length_buf (h : Holds msg code id len auth attrs) :
    msg.buf.length = hdrSize + (encodeAttrs attrs).length := by
  rw [h.buf, List.length_append, h.length_hdr]

theorem Holds.attrs_eq (h : Holds msg code id len auth attrs) : msg.attrs = attrs := by
  rw [Msg.attrs, h.attrPos, ← h.length_hdr]
  exact map_attrAt_positions h.buf h.short

theorem Holds.authenticator_eq (h : Holds msg code id len auth attrs) : msg.authenticator = auth := by
  rw [Msg.authenticator, h.buf, encodeHdr]
  exact field_append (by simp) h.authenticator

theorem Holds.patch_length (h : Holds msg code id len auth attrs) (n : ℕ) :
    patch msg.buf 2 (toBE 2 n) = encodeHdr code id n auth ++ encodeAttrs attrs := by
  have hsplit : msg.buf = [code, id] ++ toBE 2 len ++ (auth ++ encodeAttrs attrs) := by
    rw [h.buf]
    simp [encodeHdr]
  have hpatch : patch ([code, id] ++ toBE 2 len ++ (auth ++ encodeAttrs attrs)) 2 (toBE 2 n) =
      [code, id] ++ toBE 2 n ++ (auth ++ encodeAttrs attrs) := patch_append (by simp) (by simp)
  rw [hsplit, hpatch]
  simp [encodeHdr]

theorem Holds.setLength (h : Holds msg code id len auth attrs) :
    Holds msg.setLength code id msg.buf.length auth attrs :=
  ⟨h.patch_length _, h.attrPos, h.authenticator, h.short⟩

theorem Holds.patch_authenticator (h : Holds msg code id len auth attrs)
    (hauth : auth'.length = md5MacLen) :
    patch msg.buf 4 auth' = encodeHdr code id len auth' ++ encodeAttrs attrs := by
  rw [h.buf, encodeHdr, encodeHdr]
  exact patch_append (by simp) (h.authenticator.trans hauth.symm)

theorem Holds.setAuthenticator (h : Holds msg code id len auth attrs) (hauth : auth'.length = md5MacLen) :
    Holds (msg.setAuthenticator auth') code id len auth' attrs :=
  ⟨h.patch_authenticator hauth, h.attrPos, hauth, h.short⟩

-- An attribute that is added without a failure
theorem Holds.addAttr (h : Holds msg code id len auth attrs)
    (hok : (msg.addAttr alloc type data).2 = true) :
    Holds (msg.addAttr alloc type data).1 code id len auth (attrs ++ [⟨type, data⟩]) := by
  unfold Msg.addAttr at hok ⊢
  split at hok
  · cases hok
  rename_i hlen
  rw [if_neg hlen]
  split at hok
  · cases hok
  rename_i hbuf
  rw [if_neg hbuf]
  dsimp only at hok ⊢
  split at hok
  · cases hok
  rename_i harray
  rw [if_neg harray]
  refine ⟨?_, ?_, h.authenticator, ?_⟩
  · dsimp only
    rw [h.buf, encodeAttrs_append, List.append_assoc]
    simp [encodeAttrs, encodeAttr]
  · dsimp only
    rw [positions_append, h.attrPos, h.length_buf]
    rfl
  · intro a ha
    rcases List.mem_append.mp ha with ha | ha
    · exact h.short a ha
    · rw [List.mem_singleton.mp ha]
      exact Nat.le_of_not_lt hlen

def eapAttrs : ℕ → Octets → List Attr
  | 0, _ => []
  | fuel + 1, data =>
    if data.isEmpty then []
    else ⟨attrEapMessage, data.take maxAttrLen⟩ :: eapAttrs fuel (data.drop maxAttrLen)

theorem Holds.addEapLoop {fuel : ℕ} (h : Holds msg code id len auth attrs)
    (hok : (msg.addEapLoop alloc fuel data).2 = true) :
    Holds (msg.addEapLoop alloc fuel data).1 code id len auth (attrs ++ eapAttrs fuel data) := by
  induction fuel generalizing msg attrs data with
  | zero => simpa [Msg.addEapLoop, eapAttrs] using h
  | succ fuel ih =>
    unfold Msg.addEapLoop at hok ⊢
    unfold eapAttrs
    by_cases hempty : data.isEmpty = true
    · simpa [hempty] using h
    rw [if_neg hempty] at hok ⊢
    rw [if_neg hempty]
    dsimp only at hok ⊢
    by_cases hadd : (msg.addAttr alloc attrEapMessage (data.take maxAttrLen)).2 = true
    · rw [if_pos hadd] at hok ⊢
      have hrest := ih (h.addAttr hadd) hok
      rw [List.append_assoc] at hrest
      exact hrest
    · rw [if_neg hadd] at hok
      exact absurd hok hadd

theorem Holds.patch_last {data' : Octets} (h : Holds msg code id len auth (attrs ++ [⟨type, data⟩]))
    (hdata : data.length = data'.length) :
    patch msg.buf (hdrSize + (encodeAttrs attrs).length + 2) data' =
      encodeHdr code id len auth ++ encodeAttrs (attrs ++ [⟨type, data'⟩]) := by
  have hsplit : msg.buf =
      (encodeHdr code id len auth ++ encodeAttrs attrs ++ [type, UInt8.ofNat (2 + data.length)]) ++
        data ++ [] := by
    rw [h.buf, encodeAttrs_append]
    simp [encodeAttrs, encodeAttr]
  rw [hsplit, patch_append _ hdata, encodeAttrs_append]
  · simp [encodeAttrs, encodeAttr, hdata]
  · rw [List.length_append, List.length_append, h.length_hdr]
    rfl

theorem Holds.setLast {data' : Octets} (h : Holds msg code id len auth (attrs ++ [⟨type, data⟩]))
    (hdata : data.length = data'.length) :
    Holds { msg with buf := patch msg.buf (hdrSize + (encodeAttrs attrs).length + 2) data' }
      code id len auth (attrs ++ [⟨type, data'⟩]) := by
  refine ⟨h.patch_last hdata, ?_, h.authenticator, ?_⟩
  · rw [positions_append]
    exact h.attrPos.trans (positions_append _)
  · intro a ha
    rcases List.mem_append.mp ha with ha | ha
    · exact h.short a (List.mem_append_left _ ha)
    rw [List.mem_singleton.mp ha]
    have hlast := h.short ⟨type, data⟩ (List.mem_append_right _ (List.mem_singleton_self _))
    exact hdata ▸ hlast

theorem Holds.parse (h : Holds msg code id len auth attrs) (hlen : len = msg.buf.length)
    (hmax : msg.buf.length ≤ 0xffff) : Msg.parse msg.buf = some msg := by
  have htotal := h.length_buf
  have hfield : ofBE (field msg.buf 2 2) = msg.buf.length := by
    have hbytes : field msg.buf 2 2 = toBE 2 len := by
      have hsplit : msg.buf = [code, id] ++ toBE 2 len ++ (auth ++ encodeAttrs attrs) := by
        rw [h.buf]
        simp [encodeHdr]
      rw [hsplit]
      exact field_append rfl (by simp)
    rw [hbytes, ofBE_toBE, hlen]
    exact Nat.mod_eq_of_lt (by omega)
  have hrest : msg.buf.drop hdrSize = encodeAttrs attrs := by
    rw [h.buf]
    exact List.drop_left' h.length_hdr
  unfold Msg.parse
  rw [if_neg (by omega)]
  dsimp only
  rw [hfield, if_neg (by omega), List.take_length, hrest,
    parseAttrs_encodeAttrs hdrSize h.short (by omega), ← h.attrPos]
  rfl

theorem Holds.msgAuth_positions {mac : Octets} (hnone : ∀ a ∈ attrs, a.type ≠ attrMessageAuthenticator)
    (h : Holds msg code id len auth (attrs ++ [⟨attrMessageAuthenticator, mac⟩])) :
    (msg.attrPos.filter fun p => (msg.attrAt p).type = attrMessageAuthenticator) =
      [hdrSize + (encodeAttrs attrs).length] := by
  have hmap := h.attrs_eq
  have hpos : msg.attrPos = positions hdrSize attrs ++ [hdrSize + (encodeAttrs attrs).length] := by
    rw [h.attrPos, positions_append]
    rfl
  rw [Msg.attrs, hpos, List.map_append] at hmap
  obtain ⟨hfirst, hlast⟩ := List.append_inj' hmap rfl
  have hothers : ∀ p ∈ positions hdrSize attrs, ¬(msg.attrAt p).type = attrMessageAuthenticator := by
    intro p hp
    exact hnone _ (hfirst ▸ List.mem_map_of_mem hp)
  rw [hpos, List.filter_append, List.filter_eq_nil_iff.mpr fun p hp => by simpa using hothers p hp]
  simp only [List.map_cons, List.map_nil, List.cons.injEq, and_true] at hlast
  simp [hlast]

end Message

section Finish

variable {c : Crypto} {alloc : Alloc} {msg : Msg} {code id : UInt8} {len : ℕ}
  {auth secret mac : Octets} {reqAuth? : Option Octets} {attrs : List Attr}

def macInput (code id : UInt8) (length : ℕ) (authenticator : Octets) (attrs : List Attr) : Octets :=
  encodeHdr code id length authenticator ++
    encodeAttrs (attrs ++ [⟨attrMessageAuthenticator, List.replicate md5MacLen 0⟩])

theorem Holds.addMsgAuth (h : Holds msg code id len auth attrs)
    (hok : (msg.addAttr alloc attrMessageAuthenticator (List.replicate md5MacLen 0)).2 = true) :
    Holds (msg.addAttr alloc attrMessageAuthenticator (List.replicate md5MacLen 0)).1.setLength code id
      (msg.buf.length + 18) auth
      (attrs ++ [⟨attrMessageAuthenticator, List.replicate md5MacLen 0⟩]) := by
  have hadd := h.addAttr hok
  have hlen := hadd.length_buf
  have htotal := h.length_buf
  rw [encodeAttrs_append, List.length_append] at hlen
  have hlast : (encodeAttrs [⟨attrMessageAuthenticator, List.replicate md5MacLen 0⟩]).length = 18 := rfl
  have hsum : (msg.addAttr alloc attrMessageAuthenticator (List.replicate md5MacLen 0)).1.buf.length =
      msg.buf.length + 18 := by omega
  rw [← hsum]
  exact hadd.setLength

theorem Holds.length_addMsgAuth {m : Msg}
    (h : Holds m code id (msg.buf.length + 18) auth
      (attrs ++ [⟨attrMessageAuthenticator, mac⟩])) (hmac : mac.length = md5MacLen)
    (hmsg : msg.buf.length = hdrSize + (encodeAttrs attrs).length) :
    m.buf.length = msg.buf.length + 18 := by
  have hlen := h.length_buf
  have hlast : (encodeAttrs [⟨attrMessageAuthenticator, mac⟩]).length = 2 + mac.length := by
    simp [encodeAttrs]
  rw [encodeAttrs_append, List.length_append, hlast] at hlen
  unfold md5MacLen at hmac
  omega

theorem Holds.setMac {m : Msg} (h : Holds m code id len auth
      (attrs ++ [⟨attrMessageAuthenticator, List.replicate md5MacLen 0⟩]))
    (hmsg : msg.buf.length = hdrSize + (encodeAttrs attrs).length) :
    Holds { m with buf := patch m.buf (msg.buf.length + 2) (c.hmacMd5 secret m.buf) } code id len auth
      (attrs ++ [⟨attrMessageAuthenticator, c.hmacMd5 secret m.buf⟩]) := by
  have hlen : (List.replicate md5MacLen (0 : UInt8)).length = (c.hmacMd5 secret m.buf).length := by
    rw [List.length_replicate, c.length_hmacMd5]
  rw [hmsg]
  exact h.setLast hlen

theorem Holds.finish (h : Holds msg code id len auth attrs)
    (hok : (msg.finish c alloc (some secret)).2 = true) :
    ∃ mac, mac = c.hmacMd5 secret (macInput code id (msg.buf.length + 18) auth attrs) ∧
      Holds (msg.finish c alloc (some secret)).1 code id (msg.buf.length + 18) auth
        (attrs ++ [⟨attrMessageAuthenticator, mac⟩]) ∧ msg.buf.length + 18 ≤ 0xffff := by
  simp only [Msg.finish] at hok ⊢
  by_cases hadd : (msg.addAttr alloc attrMessageAuthenticator (List.replicate md5MacLen 0)).2 = true
  · simp only [hadd, Bool.not_true, Bool.false_eq_true, if_false, decide_eq_true_eq] at hok ⊢
    have hzero := h.addMsgAuth hadd
    have hlen := hzero.length_addMsgAuth (List.length_replicate ..) h.length_buf
    rw [hlen] at hok
    exact ⟨_, congrArg (c.hmacMd5 secret) hzero.buf, hzero.setMac h.length_buf, hok⟩
  · simp only [hadd, Bool.not_false, if_true] at hok
    cases hok

theorem Holds.responseAuth {reqAuth : Octets} (h : Holds msg code id len auth attrs) :
    msg.responseAuth c secret reqAuth =
      c.md5 ([code, id] ++ toBE 2 len ++ reqAuth ++ encodeAttrs attrs ++ secret) := by
  have htake : msg.buf.take 4 = [code, id] ++ toBE 2 len := by
    rw [h.buf, encodeHdr, List.append_assoc]
    exact List.take_left' (by simp)
  have hdrop : msg.buf.drop hdrSize = encodeAttrs attrs := by
    rw [h.buf]
    exact List.drop_left' h.length_hdr
  rw [Msg.responseAuth, htake, hdrop]

theorem Holds.finishSrv {reqAuth : Octets} (h : Holds msg code id len auth attrs)
    (hreq : reqAuth.length = md5MacLen) (hok : (msg.finishSrv c alloc secret reqAuth).2 = true) :
    ∃ mac resp, mac = c.hmacMd5 secret (macInput code id (msg.buf.length + 18) reqAuth attrs) ∧
      resp.length = md5MacLen ∧
      Holds (msg.finishSrv c alloc secret reqAuth).1 code id (msg.buf.length + 18) resp
        (attrs ++ [⟨attrMessageAuthenticator, mac⟩]) ∧
      resp = c.md5 ([code, id] ++ toBE 2 (msg.buf.length + 18) ++ reqAuth ++
        encodeAttrs (attrs ++ [⟨attrMessageAuthenticator, mac⟩]) ++ secret) ∧
      msg.buf.length + 18 ≤ 0xffff := by
  simp only [Msg.finishSrv] at hok ⊢
  by_cases hadd : (msg.addAttr alloc attrMessageAuthenticator (List.replicate md5MacLen 0)).2 = true
  · simp only [hadd, Bool.not_true, Bool.false_eq_true, if_false, decide_eq_true_eq] at hok ⊢
    have hzero := (h.addMsgAuth hadd).setAuthenticator hreq
    have hset : Holds _ code id (msg.buf.length + 18) reqAuth
        (attrs ++ [⟨attrMessageAuthenticator, c.hmacMd5 secret _⟩]) := hzero.setMac h.length_buf
    have hlen := hset.length_addMsgAuth (c.length_hmacMd5 _ _) h.length_buf
    rw [hlen] at hok
    refine ⟨_, _, congrArg (c.hmacMd5 secret) hzero.buf, c.length_md5 _,
      hset.setAuthenticator (c.length_md5 _), hset.responseAuth, hok⟩
  · simp only [hadd, Bool.not_false, if_true] at hok
    cases hok

theorem Holds.verifyMsgAuth (h : Holds msg code id len auth (attrs ++ [⟨attrMessageAuthenticator, mac⟩]))
    (hnone : ∀ a ∈ attrs, a.type ≠ attrMessageAuthenticator) (hmac : mac.length = md5MacLen)
    (hreq : ∀ a ∈ reqAuth?, a.length = md5MacLen) :
    msg.verifyMsgAuth c secret reqAuth? =
      decide (c.hmacMd5 secret (macInput code id len (reqAuth?.getD auth) attrs) = mac) := by
  have hzeroLen : mac.length = (List.replicate md5MacLen (0 : UInt8)).length := by
    rw [hmac, List.length_replicate]
  have hzero := h.setLast hzeroLen
  have hfield : field msg.buf (hdrSize + (encodeAttrs attrs).length + 2) md5MacLen = mac := by
    have hsplit : msg.buf = (encodeHdr code id len auth ++ encodeAttrs attrs ++
        [attrMessageAuthenticator, UInt8.ofNat (2 + mac.length)]) ++ mac ++ [] := by
      rw [h.buf, encodeAttrs_append]
      simp [encodeAttrs, encodeAttr]
    rw [hsplit]
    apply field_append _ hmac
    rw [List.length_append, List.length_append, h.length_hdr]
    rfl
  have hinput : (reqAuth?.elim
      (patch msg.buf (hdrSize + (encodeAttrs attrs).length + 2) (List.replicate md5MacLen 0)) fun a =>
        patch (patch msg.buf (hdrSize + (encodeAttrs attrs).length + 2) (List.replicate md5MacLen 0)) 4 a) =
      macInput code id len (reqAuth?.getD auth) attrs := by
    cases reqAuth? with
    | none => exact hzero.buf
    | some a => exact hzero.patch_authenticator (hreq a rfl)
  unfold Msg.verifyMsgAuth
  rw [h.msgAuth_positions hnone]
  simp only [hinput, hfield]

end Finish

section Main

inductive Op where
  | attr (alloc : Alloc) (type : UInt8) (data : Octets)
  | eap (alloc : Alloc) (data : Octets)

def Op.run (msg : Msg) : Op → Msg × Bool
  | .attr alloc type data => msg.addAttr alloc type data
  | .eap alloc data => msg.addEap alloc data

def runOps : Msg → List Op → Msg × Bool
  | msg, [] => (msg, true)
  | msg, op :: ops =>
    let r := op.run msg
    if r.2 then runOps r.1 ops else r

def Op.attrs : Op → List Attr
  | .attr _ type data => [⟨type, data⟩]
  | .eap _ data => eapAttrs data.length data

def Op.eapMsg : Op → Option Octets
  | .attr _ _ _ => none
  | .eap _ data => some data

def Op.NoType (type : UInt8) : Op → Prop
  | .attr _ t _ => t ≠ type
  | .eap _ _ => True

variable {c : Crypto} {alloc : Alloc} {msg : Msg} {code id : UInt8} {len : ℕ} {auth data : Octets}
  {attrs : List Attr} {ops : List Op}

theorem Holds.runOps (h : Holds msg code id len auth attrs) (hok : (runOps msg ops).2 = true) :
    Holds (runOps msg ops).1 code id len auth (attrs ++ ops.flatMap Op.attrs) := by
  induction ops generalizing msg attrs with
  | nil => simpa [Radius.runOps] using h
  | cons op ops ih =>
    simp only [Radius.runOps] at hok ⊢
    by_cases hop : (op.run msg).2 = true
    · rw [if_pos hop] at hok ⊢
      have hadd : Holds (op.run msg).1 code id len auth (attrs ++ op.attrs) := by
        cases op with
        | attr alloc type data => exact h.addAttr hop
        | eap alloc data => exact h.addEapLoop hop
      have hrest := ih hadd hok
      rw [List.append_assoc] at hrest
      exact hrest
    · rw [if_neg hop] at hok
      exact absurd hok hop

theorem holds_new (hauth : auth.length = md5MacLen) :
    Holds ((Msg.new code id).setAuthenticator auth) code id 0 auth [] := by
  have hnew : Holds (Msg.new code id) code id 0 (List.replicate md5MacLen 0) [] :=
    ⟨rfl, rfl, List.length_replicate .., by simp⟩
  exact hnew.setAuthenticator hauth

theorem type_eapAttrs {fuel : ℕ} {a : Attr} (ha : a ∈ eapAttrs fuel data) : a.type = attrEapMessage := by
  induction fuel generalizing data with
  | zero => simp [eapAttrs] at ha
  | succ fuel ih =>
    unfold eapAttrs at ha
    split at ha
    · simp at ha
    rcases List.mem_cons.mp ha with rfl | ha
    · rfl
    · exact ih ha

theorem flatMap_eapAttrs {fuel : ℕ} (hfuel : data.length ≤ fuel) :
    (eapAttrs fuel data).flatMap Attr.data = data := by
  induction fuel generalizing data with
  | zero =>
    have hnil : data = [] := List.eq_nil_of_length_eq_zero (Nat.le_zero.mp hfuel)
    rw [hnil]
    rfl
  | succ fuel ih =>
    unfold eapAttrs
    split
    · rename_i hempty
      rw [List.isEmpty_iff.mp hempty]
      rfl
    rename_i hempty
    have hpos : data.length ≠ 0 := by
      intro h0
      exact hempty (List.isEmpty_iff.mpr (List.eq_nil_of_length_eq_zero h0))
    have hrest : (data.drop maxAttrLen).length ≤ fuel := by
      rw [List.length_drop]
      unfold maxAttrLen
      omega
    rw [List.flatMap_cons, ih hrest]
    exact List.take_append_drop _ _

-- What `radius_msg_get_eap` collects from attributes
def eapOf (attrs : List Attr) : Octets :=
  attrs.flatMap fun a => if a.type = attrEapMessage then a.data else []

theorem eapOf_append (l l' : List Attr) : eapOf (l ++ l') = eapOf l ++ eapOf l' := by
  simp [eapOf]

theorem eapOf_eapAttrs (data : Octets) : eapOf (eapAttrs data.length data) = data := by
  have heq : eapOf (eapAttrs data.length data) = (eapAttrs data.length data).flatMap Attr.data := by
    apply List.flatMap_congr
    intro a ha
    rw [if_pos (type_eapAttrs ha)]
  rw [heq]
  exact flatMap_eapAttrs (Nat.le_refl _)

theorem eapOf_ops (hops : ∀ op ∈ ops, op.NoType attrEapMessage) :
    eapOf (ops.flatMap Op.attrs) = (ops.filterMap Op.eapMsg).flatten := by
  induction ops with
  | nil => rfl
  | cons op ops ih =>
    have hrest := ih fun x hx => hops x (List.mem_cons_of_mem op hx)
    rw [List.flatMap_cons, eapOf_append, hrest]
    cases op with
    | attr alloc type data =>
      have htype : type ≠ attrEapMessage := hops _ List.mem_cons_self
      simp [Op.attrs, Op.eapMsg, eapOf, htype, List.filterMap_cons]
    | eap alloc data =>
      rw [Op.attrs, eapOf_eapAttrs]
      rfl

theorem noType_ops {type : UInt8} (htype : attrEapMessage ≠ type) (hops : ∀ op ∈ ops, op.NoType type) :
    ∀ a ∈ ops.flatMap Op.attrs, a.type ≠ type := by
  intro a ha
  obtain ⟨op, hop, ha⟩ := List.mem_flatMap.mp ha
  cases op with
  | attr alloc type data =>
    rw [List.mem_singleton.mp ha]
    exact hops _ hop
  | eap alloc data =>
    rw [type_eapAttrs ha]
    exact htype

theorem noMsgAuth_ops (hops : ∀ op ∈ ops, op.NoType attrMessageAuthenticator) :
    ∀ a ∈ ops.flatMap Op.attrs, a.type ≠ attrMessageAuthenticator := noType_ops (by decide) hops

theorem Holds.getEap (h : Holds msg code id len auth attrs) (hne : eapOf attrs ≠ []) :
    msg.getEap = some (eapOf attrs) := by
  have hempty : ¬(eapOf attrs).isEmpty = true := by simpa using hne
  unfold Msg.getEap
  rw [h.attrs_eq]
  exact if_neg hempty

-- The calls put in one EAP message, by `radius_msg_add_eap`.
structure CarriesEap (ops : List Op) (eap : Octets) : Prop where
  noType : ∀ op ∈ ops, op.NoType attrEapMessage
  once : ops.filterMap Op.eapMsg = [eap]
  ne : eap ≠ []

-- A message that is built by calls from a new one, and finished, is parsed to the same attributes, and its
-- EAP message and its authenticators are found in it.
theorem radius_msg_round_trip (c : Crypto) (code id : UInt8) (auth secret : Octets) (ops : List Op)
    (hauth : auth.length = md5MacLen) (hnoAuth : ∀ op ∈ ops, op.NoType attrMessageAuthenticator)
    (hops : (runOps ((Msg.new code id).setAuthenticator auth) ops).2 = true) :
    (∀ alloc, ((runOps ((Msg.new code id).setAuthenticator auth) ops).1.finish c alloc
        (some secret)).2 = true →
      ∃ msg mac, Msg.parse ((runOps ((Msg.new code id).setAuthenticator auth) ops).1.finish c alloc
          (some secret)).1.buf = some msg ∧
        msg.attrs = ops.flatMap Op.attrs ++ [⟨attrMessageAuthenticator, mac⟩] ∧
        (∀ eap, CarriesEap ops eap → msg.getEap = some eap) ∧ msg.verifyMsgAuth c secret none = true) ∧
    (∀ alloc (req : Msg), req.authenticator.length = md5MacLen →
      ((runOps ((Msg.new code id).setAuthenticator auth) ops).1.finishSrv c alloc secret
        req.authenticator).2 = true →
      ∃ msg mac, Msg.parse ((runOps ((Msg.new code id).setAuthenticator auth) ops).1.finishSrv c alloc
          secret req.authenticator).1.buf = some msg ∧
        msg.attrs = ops.flatMap Op.attrs ++ [⟨attrMessageAuthenticator, mac⟩] ∧
        (∀ eap, CarriesEap ops eap → msg.getEap = some eap) ∧ msg.verify c secret req true = true) := by
  have hbuilt := (holds_new hauth).runOps hops
  have hnone := noMsgAuth_ops hnoAuth
  -- The Message-Authenticator adds nothing to the EAP message.
  have heapOf : ∀ mac eap, CarriesEap ops eap →
      eapOf (ops.flatMap Op.attrs ++ [⟨attrMessageAuthenticator, mac⟩]) = eap := by
    intro mac eap hcarries
    have hlast : eapOf [⟨attrMessageAuthenticator, mac⟩] = [] := by
      have hother : ¬attrMessageAuthenticator = attrEapMessage := by decide
      simp [eapOf, hother]
    rw [eapOf_append, eapOf_ops hcarries.noType, hcarries.once, hlast]
    simp
  rw [List.nil_append] at hbuilt
  refine ⟨fun alloc hok => ?_, fun alloc req hreq hok => ?_⟩
  · obtain ⟨mac, hmac, hfinish, hmax⟩ := hbuilt.finish hok
    have hlen : mac.length = md5MacLen := by rw [hmac, c.length_hmacMd5]
    have htotal := hfinish.length_addMsgAuth hlen hbuilt.length_buf
    refine ⟨_, mac, hfinish.parse htotal.symm (by omega), hfinish.attrs_eq, ?_, ?_⟩
    · intro eap hcarries
      rw [hfinish.getEap (by rw [heapOf mac eap hcarries]; exact hcarries.ne), heapOf mac eap hcarries]
    · rw [hfinish.verifyMsgAuth hnone hlen (by simp)]
      exact decide_eq_true hmac.symm
  · obtain ⟨mac, resp, hmac, hresp, hfinish, hauth', hmax⟩ := hbuilt.finishSrv hreq hok
    have hlen : mac.length = md5MacLen := by rw [hmac, c.length_hmacMd5]
    have htotal := hfinish.length_addMsgAuth hlen hbuilt.length_buf
    refine ⟨_, mac, hfinish.parse htotal.symm (by omega), hfinish.attrs_eq, ?_, ?_⟩
    · intro eap hcarries
      rw [hfinish.getEap (by rw [heapOf mac eap hcarries]; exact hcarries.ne), heapOf mac eap hcarries]
    · have hsome : ∀ a ∈ some req.authenticator, a.length = md5MacLen := by simpa using hreq
      unfold Msg.verify
      rw [hfinish.verifyMsgAuth hnone hlen hsome, hfinish.responseAuth, hfinish.authenticator_eq]
      simp [hmac, hauth']

def longIdentity : Octets := [2, 0, 1, 44, 1] ++ List.replicate 295 97

def sampleOps : List Op := [.attr {} attrUserName [97, 98], .eap {} longIdentity, .attr {} attrSessionTimeout [0, 0, 0, 60]]

theorem radius_msg_round_trip_identity :
    ∃ msg mac, Msg.parse ((runOps ((Msg.new codeAccessRequest 7).setAuthenticator
        (List.replicate 16 1)) sampleOps).1.finish zeroCrypto {} (some [115])).1.buf = some msg ∧
      msg.attrs = sampleOps.flatMap Op.attrs ++ [⟨attrMessageAuthenticator, mac⟩] ∧
      msg.getEap = some longIdentity ∧ msg.verifyMsgAuth zeroCrypto [115] none = true := by
  obtain ⟨msg, mac, hparse, hattrs, heap, hverify⟩ :=
    (radius_msg_round_trip zeroCrypto codeAccessRequest 7 (List.replicate 16 1) [115] sampleOps rfl
      (by simp [sampleOps, Op.NoType, attrUserName, attrSessionTimeout, attrMessageAuthenticator])
      (by decide +kernel)).1 {} (by decide +kernel)
  refine ⟨msg, mac, hparse, hattrs, heap longIdentity ⟨?_, rfl, by decide⟩, hverify⟩
  simp [sampleOps, Op.NoType, attrUserName, attrSessionTimeout, attrEapMessage]

def twoEapOps : List Op := [.attr {} attrEapMessage [1], .eap {} [2]]

theorem eap_message_of_two_calls :
    twoEapOps.filterMap Op.eapMsg = [[2]] ∧ (runOps (Msg.new codeAccessRequest 7) twoEapOps).2 = true ∧
      ((runOps (Msg.new codeAccessRequest 7) twoEapOps).1.finish zeroCrypto {} (some [115])).2 = true ∧
      (Msg.parse ((runOps (Msg.new codeAccessRequest 7) twoEapOps).1.finish zeroCrypto {}
        (some [115])).1.buf).map Msg.getEap = some (some [1, 2]) := by
  decide

end Main

end WpaSupplicant.Radius
