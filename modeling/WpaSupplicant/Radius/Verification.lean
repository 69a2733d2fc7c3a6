import WpaSupplicant.Radius.Keys

namespace WpaSupplicant.Radius.Keys

open Lib.Octets Lib.Buffer Lib.Checked Lib.Allocated Lib.Reads

-- The loop of `radius_msg_verify_msg_auth` over the attributes. A second Message-Authenticator ends it.
def findMsgAuth (buf : Octets) : List ℕ → Option ℕ → Option (Except ℤ (Option ℕ))
  | [], attr => some (.ok attr)
  | pos :: rest, attr =>
    (readBE buf pos 1).bind fun type =>
      if type ≠ attrMessageAuthenticator.toNat then findMsgAuth buf rest attr
      else if attr.isSome then some (.error 1)
      else findMsgAuth buf rest (some pos)

def putAuthenticator (reqAuth : Option (List.Vector UInt8 16)) (buf : Octets) : Option (Octets × Octets) :=
  match reqAuth with
  | none => some (buf, [])
  | some auth => (load buf 4 16).bind fun orig => (store buf 4 auth.val).map fun buf => (buf, orig)

def restoreAuthenticator (reqAuth : Option (List.Vector UInt8 16)) (orig buf : Octets) : Option Octets :=
  if reqAuth.isSome then store buf 4 orig else some buf

-- `radius_msg_verify_msg_auth`: what it returns, and the octets of the message afterwards
def verifyMsgAuth (c : Crypto) (msg : Msg) (secret : Octets) (reqAuth : Option (List.Vector UInt8 16)) :
    Option (ℤ × Octets) :=
  (findMsgAuth msg.buf msg.attrPos none).bind fun r =>
    match r with
    | .error code => some (code, msg.buf)
    | .ok none => some (1, msg.buf)
    | .ok (some attr) =>
      (load msg.buf (attr + 2) md5MacLen).bind fun orig =>
      (store msg.buf (attr + 2) (List.replicate md5MacLen 0)).bind fun buf =>
      (putAuthenticator reqAuth buf).bind fun put =>
        let auth := c.hmacMd5 secret put.1
        (store put.1 (attr + 2) orig).bind fun buf =>
        (restoreAuthenticator reqAuth put.2 buf).map fun buf => (if orig = auth then 0 else 1, buf)

section Parsed

variable {buf : Octets} {msg : Msg} {pos : ℕ}

structure InBuffer (buf : Octets) (pos : ℕ) : Prop where
  header : hdrSize ≤ pos
  least : 2 ≤ octetAt buf (pos + 1)
  fits : pos + octetAt buf (pos + 1) ≤ buf.length

structure Parsed (msg : Msg) : Prop where
  header : hdrSize ≤ msg.buf.length
  attrs : ∀ pos ∈ msg.attrPos, InBuffer msg.buf pos

theorem octetAt_eq (buf : Octets) (pos : ℕ) : octetAt buf pos = (buf[pos]?.getD 0).toNat := by
  rw [octetAt, field]
  cases h : buf.drop pos with
  | nil =>
    have hnone : buf[pos]? = none := List.getElem?_eq_none (List.drop_eq_nil_iff.1 h)
    rw [hnone]
    rfl
  | cons a l =>
    have hhead : buf[pos]? = some a := by
      rw [← List.head?_drop, h]
      rfl
    rw [hhead]
    simp [ofBE]

theorem parseAttrs_inBuffer {fuel : ℕ} {l : List ℕ} (hpos : hdrSize ≤ pos)
    (h : Msg.parseAttrs fuel pos (buf.drop pos) = some l) : ∀ p ∈ l, InBuffer buf p := by
  induction fuel generalizing pos l with
  | zero =>
    cases hdrop : buf.drop pos with
    | nil =>
      rw [hdrop] at h
      cases h
      exact fun p hp => absurd hp List.not_mem_nil
    | cons a rest =>
      rw [hdrop] at h
      cases rest <;> cases h
  | succ fuel ih =>
    cases hdrop : buf.drop pos with
    | nil =>
      rw [hdrop] at h
      cases h
      exact fun p hp => absurd hp List.not_mem_nil
    | cons type rest =>
      cases rest with
      | nil =>
        rw [hdrop] at h
        cases h
      | cons len rest =>
        rw [hdrop, Msg.parseAttrs] at h
        split at h
        · cases h
        rename_i hlen
        obtain ⟨ps, hps, rfl⟩ := Option.map_eq_some_iff.1 h
        have hsize : (buf.drop pos).length = (type :: len :: rest).length := congrArg List.length hdrop
        have hlength : octetAt buf (pos + 1) = len.toNat := by
          have hget : buf[pos + 1]? = some len := by
            rw [← List.getElem?_drop, hdrop]
            rfl
          rw [octetAt_eq, hget]
          rfl
        rw [List.length_drop] at hsize
        rw [← hdrop, List.drop_drop] at hps
        have hfits : pos + len.toNat ≤ buf.length := by
          simp only [List.length_cons] at hlen hsize
          omega
        rw [List.forall_mem_cons]
        refine ⟨⟨hpos, by omega, by omega⟩, ih (by omega) hps⟩

theorem parsed_of_parse {data : Octets} (h : Msg.parse data = some msg) : Parsed msg := by
  rw [Msg.parse] at h
  split at h
  · cases h
  dsimp only at h
  split at h
  · cases h
  rename_i hshort hlen
  obtain ⟨l, hl, rfl⟩ := Option.map_eq_some_iff.1 h
  have hsize : (data.take (ofBE (field data 2 2))).length = ofBE (field data 2 2) := by
    rw [List.length_take]
    omega
  exact ⟨by dsimp only; omega, parseAttrs_inBuffer (Nat.le_refl _) hl⟩

end Parsed

section Lookups

variable {c : Crypto} {buf key secret auth plain : Octets} {msg : Msg}
  {vendor subtype pos left size : ℕ} {first : Bool} {rest : List ℕ}

theorem returns_vendorLoop (h : pos + left ≤ buf.length) :
    Returns (vendorLoop buf subtype pos left) fun _ => True := by
  induction left using Nat.strongRecOn generalizing pos with
  | ind left ih =>
    rw [vendorLoop]
    refine .ite (fun hleft => ?_) fun _ => .pure trivial
    refine (returns_octet (by omega)).bind fun len hlen => ?_
    refine .ite (fun _ => .pure trivial) fun hbad => ?_
    refine (returns_octet (by omega)).bind fun type htype => ?_
    exact .ite (fun _ => ih _ (by omega) (by omega)) fun _ => (returns_load (by omega)).map fun _ _ => trivial

theorem returns_getVendorAttr (h : ∀ p ∈ rest, InBuffer buf p) :
    Returns (getVendorAttr buf vendor subtype rest) fun _ => True := by
  induction rest with
  | nil => exact .pure trivial
  | cons p rest ih =>
    obtain ⟨hp, hrest⟩ := List.forall_mem_cons.1 h
    have hnext := ih hrest
    have hleast := hp.least
    have hfits := hp.fits
    rw [getVendorAttr]
    refine (returns_octet (by omega)).bind fun type _ => .ite (fun _ => hnext) fun _ => ?_
    refine (returns_octet (by omega)).bind fun len hlen => .ite (fun _ => hnext) fun hlong => ?_
    refine (returns_readBE (by omega)).bind fun id _ => .ite (fun _ => hnext) fun _ => ?_
    exact (returns_vendorLoop (by omega)).bind fun data _ => .ite (fun _ => .pure trivial) fun _ => hnext

theorem returns_decryptLoop {k : ℕ} (hleft : left = md5MacLen * k) (hkey : key.length = pos + left) (hpos : 2 ≤ pos)
    (hsize : plain.length + left ≤ size) (hprev : first = true ∨ md5MacLen ≤ pos) :
    Returns (decryptLoop c key auth secret size first pos left plain) fun r => r.length = plain.length + left := by
  induction k generalizing first pos left plain with
  | zero =>
    rw [decryptLoop, if_neg (by omega)]
    exact .pure (by omega)
  | succ k ih =>
    rw [Nat.mul_succ] at hleft
    have hblock : 0 < md5MacLen := by decide
    rw [decryptLoop, if_pos (by omega)]
    refine Returns.bind (P := fun _ => True) ?_ fun input _ => ?_
    · refine .ite (fun _ => (returns_load (by omega)).map fun _ _ => trivial) fun hfirst => ?_
      have hback : md5MacLen ≤ pos := hprev.resolve_left hfirst
      exact (returns_load (by omega)).map fun _ _ => trivial
    · refine (returns_load (by omega)).bind fun block hload => ?_
      have hwidth : (xorOctets block (c.md5 input)).length = md5MacLen := by
        rw [xorOctets, List.length_zipWith, hload, length_field (by omega), c.length_md5, Nat.min_self]
      rw [put_of_le (by omega), Option.bind_some]
      refine (ih (by omega) (by omega) (by omega) ?_ (.inr (by omega))).mono fun r hr => ?_
      · rw [List.length_append]
        omega
      · rw [hr, List.length_append]
        omega

theorem returns_decryptMsKey : Returns (decryptMsKey c key auth secret) fun _ => True := by
  rw [decryptMsKey]
  refine .ite (fun _ => .pure trivial) fun hlong => .ite (fun _ => .pure trivial) fun hmod => ?_
  have hblocks : key.length - 2 = md5MacLen * ((key.length - 2) / 16) := by
    rw [md5MacLen]
    omega
  refine (returns_decryptLoop hblocks (by omega) (Nat.le_refl _) (by rw [List.length_nil]; omega) (.inl rfl)).bind
    fun plain hplain => ?_
  rw [List.length_nil] at hplain
  refine (returns_octet (by omega)).bind fun len _ => .ite (fun _ => .pure trivial) fun hlen => ?_
  exact (returns_load (by omega)).map fun _ _ => trivial

theorem returns_getMsKey (h : Parsed msg) : Returns (getMsKey c msg auth secret subtype) fun _ => True := by
  refine (returns_getVendorAttr h.attrs).bind fun key _ => ?_
  cases key with
  | none => exact .pure trivial
  | some key => exact returns_decryptMsKey

theorem returns_getMsKeys (h : Parsed msg) : Returns (getMsKeys c msg auth secret) fun _ => True :=
  (returns_getMsKey h).bind fun _ _ => (returns_getMsKey h).map fun _ _ => trivial

theorem returns_getCiscoKeys (h : Parsed msg) : Returns (getCiscoKeys c msg auth secret) fun _ => True := by
  refine (returns_getVendorAttr h.attrs).bind fun key _ => ?_
  cases key with
  | none => exact .pure trivial
  | some key =>
    refine .ite (fun hlen => ?_) fun _ => .pure trivial
    refine (returns_load (by omega)).bind fun text _ => .ite (fun _ => ?_) fun _ => .pure trivial
    exact (returns_load (by omega)).bind fun rest _ => (returns_decryptMsKey).map fun _ _ => trivial

theorem returns_copyText {data : Octets} (h : data.length < 10) : Returns (copyText data) fun _ => True := by
  refine (returns_store (by rw [List.length_replicate]; omega)).bind fun text htext => ?_
  rw [List.length_replicate] at htext
  exact (returns_store (by rw [List.length_singleton]; omega)).map fun _ _ => trivial

theorem returns_tunnelAttr {tunnel : Fin tunnelTags → TunnelAttrs} (h : InBuffer buf pos) :
    Returns (tunnelAttr buf tunnel pos) fun _ => True := by
  have hleast := h.least
  have hfits := h.fits
  refine (returns_octet (by omega)).bind fun len hlen => .ite (fun _ => .pure trivial) fun hlong => ?_
  refine (returns_octet (by omega)).bind fun tag _ => (returns_octet (by omega)).bind fun type _ => ?_
  refine .ite (fun _ => .ite (fun _ => .pure trivial) fun hsix => ?_) fun _ =>
    .ite (fun _ => .ite (fun _ => .pure trivial) fun hsix => ?_) fun _ =>
      .ite (fun _ => .ite (fun _ => .pure trivial) fun hten => ?_) fun _ => .pure trivial
  · exact (returns_readBE (by omega)).map fun _ _ => trivial
  · exact (returns_readBE (by omega)).map fun _ _ => trivial
  · have hskip : (if tag < tunnelTags then 1 else 0) ≤ 1 := by split <;> omega
    have hroom : pos + 2 + (if tag < tunnelTags then 1 else 0) + (len - 2 - if tag < tunnelTags then 1 else 0) ≤
        buf.length := by omega
    refine (returns_load hroom).bind fun data hdata => ?_
    have hlength : data.length < 10 := by
      rw [hdata, length_field hroom]
      omega
    exact (returns_copyText hlength).map fun _ _ => trivial

theorem returns_getVlanid (h : Parsed msg) : Returns (getVlanid msg) fun _ => True := by
  have hrounds := Returns.foldlM (f := tunnelAttr msg.buf)
    (I := fun _ rest => ∀ p ∈ rest, InBuffer msg.buf p)
    (fun tunnel p rest hrest => by
      obtain ⟨hp, hrest⟩ := List.forall_mem_cons.1 hrest
      exact (returns_tunnelAttr hp).mono fun _ _ => hrest)
    (b := fun _ => ({} : TunnelAttrs)) h.attrs
  exact hrounds.map fun _ _ => trivial

end Lookups

section Authenticator

variable {c : Crypto} {msg : Msg} {secret : Octets} {reqAuth : Option (List.Vector UInt8 16)} {buf : Octets} {pos : ℕ}
  {rest : List ℕ}

def msgAuths (buf : Octets) (rest : List ℕ) : List ℕ :=
  rest.filter fun p => octetAt buf p = attrMessageAuthenticator.toNat

def foundAuth : Option ℕ → List ℕ → Except ℤ (Option ℕ)
  | attr, [] => .ok attr
  | some _, _ :: _ => .error 1
  | none, pos :: auths => foundAuth (some pos) auths

theorem findMsgAuth_eq (h : ∀ p ∈ rest, InBuffer buf p) (attr : Option ℕ) :
    findMsgAuth buf rest attr = some (foundAuth attr (msgAuths buf rest)) := by
  induction rest generalizing attr with
  | nil => cases attr <;> rfl
  | cons p rest ih =>
    obtain ⟨hp, hrest⟩ := List.forall_mem_cons.1 h
    have hleast := hp.least
    have hfits := hp.fits
    have hread : readBE buf p 1 = some (octetAt buf p) := readBE_eq (by omega)
    rw [findMsgAuth, hread, Option.bind_some, msgAuths, List.filter_cons]
    by_cases htype : octetAt buf p = attrMessageAuthenticator.toNat
    · rw [if_neg (not_not.2 htype), if_pos (decide_eq_true htype)]
      cases attr with
      | some q => rfl
      | none =>
        rw [if_neg (by simp), ih hrest, foundAuth]
        rfl
    · rw [if_pos htype, if_neg (by simpa using htype)]
      exact ih hrest attr

def macInput (buf : Octets) (reqAuth : Option (List.Vector UInt8 16)) (pos : ℕ) : Octets :=
  reqAuth.elim (patch buf (pos + 2) (List.replicate md5MacLen 0)) fun auth =>
    patch (patch buf (pos + 2) (List.replicate md5MacLen 0)) 4 auth.val

theorem patch_field {x : Octets} {i : ℕ} (buf : Octets) (h : i + x.length ≤ buf.length) :
    patch (patch buf i x) i (field buf i x.length) = buf := by
  have hsplit : buf = buf.take i ++ field buf i x.length ++ buf.drop (i + x.length) := by
    rw [field, List.append_assoc, ← List.drop_drop, List.take_append_drop, List.take_append_drop]
  have hleft : (buf.take i).length = i := by
    rw [List.length_take]
    omega
  have hlen : x.length = (field buf i x.length).length := (length_field h).symm
  have hfirst : patch buf i x = buf.take i ++ x ++ buf.drop (i + x.length) := rfl
  rw [hfirst, patch_append hleft hlen]
  exact hsplit.symm

theorem patch_comm {x y : Octets} {i j : ℕ} (buf : Octets) (hij : i + x.length ≤ j) (hj : j + y.length ≤ buf.length) :
    patch (patch buf j y) i x = patch (patch buf i x) j y := by
  have hsplit : buf = buf.take i ++ field buf i x.length ++ (field buf (i + x.length) (j - (i + x.length)) ++
      field buf j y.length ++ buf.drop (j + y.length)) := by
    have hmid : field buf (i + x.length) (j - (i + x.length)) ++ (field buf j y.length ++ buf.drop (j + y.length)) =
        buf.drop (i + x.length) := by
      have hdrop : buf.drop j = (buf.drop (i + x.length)).drop (j - (i + x.length)) := by
        rw [List.drop_drop]
        congr 1
        omega
      calc field buf (i + x.length) (j - (i + x.length)) ++ (field buf j y.length ++ buf.drop (j + y.length))
          = field buf (i + x.length) (j - (i + x.length)) ++ buf.drop j := by
            rw [field, field, ← List.drop_drop (i := y.length) (j := j), List.take_append_drop]
        _ = buf.drop (i + x.length) := by
            rw [field, hdrop, List.take_append_drop]
    rw [List.append_assoc, List.append_assoc, hmid, field, ← List.drop_drop, List.take_append_drop,
      List.take_append_drop]
  have h1 : (buf.take i).length = i := by
    rw [List.length_take]
    omega
  have h2 : (field buf i x.length).length = x.length := length_field (by omega)
  have h3 : (field buf (i + x.length) (j - (i + x.length))).length = j - (i + x.length) := length_field (by omega)
  have h4 : (field buf j y.length).length = y.length := length_field hj
  generalize buf.take i = a at *
  generalize field buf i x.length = b at *
  generalize field buf (i + x.length) (j - (i + x.length)) = d at *
  generalize field buf j y.length = e at *
  generalize buf.drop (j + y.length) = f at *
  have hlast : ∀ b' : Octets, b'.length = x.length → ∀ e' e'' : Octets, e'.length = y.length → e''.length = y.length →
      patch (a ++ b' ++ (d ++ e' ++ f)) j e'' = a ++ b' ++ (d ++ e'' ++ f) := by
    intro b' hb' e' e'' he' he''
    have h := patch_append (l := a ++ b' ++ d) (x := e') (y := e'') (r := f) (i := j)
      (by simp only [List.length_append]; omega) (by omega)
    simpa only [List.append_assoc] using h
  rw [hsplit, hlast b h2 e y h4 rfl, patch_append h1 h2, patch_append h1 h2, hlast x rfl e y h4 rfl]

-- One Message-Authenticator with room for sixteen octets: they are compared, and the message is as before.
theorem verifyMsgAuth_one (h : Parsed msg) (hone : msgAuths msg.buf msg.attrPos = [pos])
    (hroom : pos + 2 + md5MacLen ≤ msg.buf.length) :
    verifyMsgAuth c msg secret reqAuth =
      some (if field msg.buf (pos + 2) md5MacLen = c.hmacMd5 secret (macInput msg.buf reqAuth pos) then 0 else 1,
        msg.buf) := by
  have hmem : pos ∈ msg.attrPos := by
    have hmem : pos ∈ msgAuths msg.buf msg.attrPos := by
      rw [hone]
      exact List.mem_singleton_self pos
    exact List.mem_of_mem_filter hmem
  have hheader := (h.attrs pos hmem).header
  have hhdr : hdrSize = 20 := rfl
  have hmac : md5MacLen = 16 := rfl
  have hzeros : (List.replicate md5MacLen (0 : UInt8)).length = md5MacLen := List.length_replicate
  have hstore : ∀ {buf x : Octets} {p : ℕ}, p + x.length ≤ buf.length → store buf p x = some (patch buf p x) :=
    fun h => if_pos h
  have hlen : ∀ {buf x : Octets} {p : ℕ}, p + x.length ≤ buf.length → (patch buf p x).length = buf.length :=
    fun h => length_store (if_pos h)
  have hback := patch_field (x := List.replicate md5MacLen 0) (i := pos + 2) msg.buf (by rw [hzeros]; exact hroom)
  rw [hzeros] at hback
  have hfield : (field msg.buf (pos + 2) md5MacLen).length = md5MacLen := length_field hroom
  have hzlen : (patch msg.buf (pos + 2) (List.replicate md5MacLen 0)).length = msg.buf.length :=
    hlen (by rw [hzeros]; exact hroom)
  rw [verifyMsgAuth, findMsgAuth_eq h.attrs, hone, Option.bind_some]
  dsimp only [foundAuth]
  rw [load_eq hroom, Option.bind_some, hstore (by rw [hzeros]; exact hroom), Option.bind_some]
  cases reqAuth with
  | none =>
    dsimp only [putAuthenticator, Option.bind_some]
    rw [hstore (by rw [hfield, hzlen]; exact hroom), Option.bind_some, hback]
    rfl
  | some auth =>
    obtain ⟨y, hy, hval⟩ : ∃ y : Octets, y.length = 16 ∧ auth.val = y := ⟨auth.val, auth.property, rfl⟩
    have hstart : 4 + 16 ≤ (patch msg.buf (pos + 2) (List.replicate md5MacLen 0)).length := by omega
    have hy' : 4 + y.length ≤ (patch msg.buf (pos + 2) (List.replicate md5MacLen 0)).length := by omega
    have hplen : (patch (patch msg.buf (pos + 2) (List.replicate md5MacLen 0)) 4 y).length = msg.buf.length := by
      rw [hlen hy', hzlen]
    have hold : field (patch msg.buf (pos + 2) (List.replicate md5MacLen 0)) 4 16 = field msg.buf 4 16 := by
      rw [field, field, patch, List.append_assoc, List.drop_append_of_le_length (by rw [List.length_take]; omega),
        List.take_append_of_le_length (by rw [List.length_drop, List.length_take]; omega), List.drop_take,
        List.take_take]
      congr 1
      omega
    have hput : putAuthenticator (some auth) (patch msg.buf (pos + 2) (List.replicate md5MacLen 0)) =
        some (patch (patch msg.buf (pos + 2) (List.replicate md5MacLen 0)) 4 y, field msg.buf 4 16) := by
      rw [putAuthenticator, load_eq hstart, Option.bind_some, hval, hstore hy', Option.map_some, hold]
    have hrestore : patch (patch (patch msg.buf (pos + 2) (List.replicate md5MacLen 0)) 4 y) (pos + 2)
        (field msg.buf (pos + 2) md5MacLen) = patch msg.buf 4 y := by
      have hswap := patch_comm (x := y) (y := field msg.buf (pos + 2) md5MacLen) (i := 4) (j := pos + 2)
        (patch msg.buf (pos + 2) (List.replicate md5MacLen 0)) (by omega) (by omega)
      rw [← hswap, hback]
    have hpos' : pos + 2 + (field msg.buf (pos + 2) md5MacLen).length ≤
        (patch (patch msg.buf (pos + 2) (List.replicate md5MacLen 0)) 4 y).length := by omega
    have hylen : (patch msg.buf 4 y).length = msg.buf.length := hlen (by omega)
    have hfour : (field msg.buf 4 16).length = 16 := length_field (by omega)
    have hend := patch_field (x := y) (i := 4) msg.buf (by omega)
    rw [hy] at hend
    rw [hput, Option.bind_some]
    dsimp only
    rw [hstore hpos', Option.bind_some, hrestore, restoreAuthenticator, if_pos Option.isSome_some,
      hstore (by omega), Option.map_some, hend, macInput, Option.elim_some, hval]

end Authenticator

section Tolerance

variable {c : Crypto} {msg : Msg} {secret : Octets} {reqAuth : Option (List.Vector UInt8 16)} {pos : ℕ}

-- What an accepted Message-Authenticator is
structure Authentic (c : Crypto) (msg : Msg) (secret : Octets) (reqAuth : Option (List.Vector UInt8 16)) (pos : ℕ) :
    Prop where
  only : msgAuths msg.buf msg.attrPos = [pos]
  length : octetAt msg.buf (pos + 1) = 2 + md5MacLen
  mac : field msg.buf (pos + 2) md5MacLen = c.hmacMd5 secret (macInput msg.buf reqAuth pos)

-- Nothing outside the message is read or written, the message is as before, and what is accepted is authentic.
structure Tolerant (c : Crypto) (msg : Msg) (secret : Octets) (reqAuth : Option (List.Vector UInt8 16)) : Prop where
  verify : ∃ code, verifyMsgAuth c msg secret reqAuth = some (code, msg.buf) ∧
    (code = 0 → ∃ pos, Authentic c msg secret reqAuth pos)
  msKeys : ∀ auth, (getMsKeys c msg auth secret).isSome
  ciscoKeys : ∀ auth, (getCiscoKeys c msg auth secret).isSome
  vlanid : (getVlanid msg).isSome

theorem isSome_of_returns {α : Type} {x : Option α} (h : Returns x fun _ => True) : x.isSome := by
  obtain ⟨a, ha, -⟩ := h
  rw [ha, Option.isSome_some]

theorem verifyMsgAuth_refused (h : Parsed msg) (hnot : ∀ pos, msgAuths msg.buf msg.attrPos ≠ [pos]) :
    verifyMsgAuth c msg secret reqAuth = some (1, msg.buf) := by
  rw [verifyMsgAuth, findMsgAuth_eq h.attrs, Option.bind_some]
  cases hauths : msgAuths msg.buf msg.attrPos with
  | nil => rfl
  | cons p rest =>
    cases rest with
    | nil => exact absurd hauths (hnot p)
    | cons q rest => rfl

def fixedCrypto (mac : Octets) (h : mac.length = md5MacLen) : Crypto where
  hmacMd5 := fun _ _ => mac
  md5 := zeroCrypto.md5
  length_hmacMd5 := fun _ _ => h
  length_md5 := zeroCrypto.length_md5

theorem radius_verification_iff {data : Octets} (h : Msg.parse data = some msg) :
    (∀ c secret reqAuth, Tolerant c msg secret reqAuth) ↔
      ∀ pos, msgAuths msg.buf msg.attrPos = [pos] → octetAt msg.buf (pos + 1) = 2 + md5MacLen := by
  have hparsed := parsed_of_parse h
  constructor
  · intro hall pos hone
    by_cases hroom : pos + 2 + md5MacLen ≤ msg.buf.length
    · -- with the octets there as the digest, the message is accepted
      obtain ⟨code, hverify, hauthentic⟩ :=
        (hall (fixedCrypto (field msg.buf (pos + 2) md5MacLen) (length_field hroom)) [] none).verify
      rw [verifyMsgAuth_one hparsed hone hroom] at hverify
      have hcode : code = 0 := by
        have hif : (if field msg.buf (pos + 2) md5MacLen = field msg.buf (pos + 2) md5MacLen then 0 else 1) = code :=
          congrArg Prod.fst (Option.some.inj hverify)
        rw [← hif, if_pos rfl]
      obtain ⟨q, hq⟩ := hauthentic hcode
      have hsame : [pos] = [q] := hone.symm.trans hq.only
      rw [List.head_eq_of_cons_eq hsame]
      exact hq.length
    · obtain ⟨code, hverify, -⟩ := (hall zeroCrypto [] none).verify
      have hload : load msg.buf (pos + 2) md5MacLen = none := if_neg hroom
      rw [verifyMsgAuth, findMsgAuth_eq hparsed.attrs, hone, Option.bind_some] at hverify
      dsimp only [foundAuth] at hverify
      rw [hload] at hverify
      cases hverify
  · intro hlen c secret reqAuth
    refine ⟨?_, fun auth => isSome_of_returns (returns_getMsKeys hparsed),
      fun auth => isSome_of_returns (returns_getCiscoKeys hparsed), isSome_of_returns (returns_getVlanid hparsed)⟩
    by_cases hex : ∃ pos, msgAuths msg.buf msg.attrPos = [pos]
    · obtain ⟨pos, hone⟩ := hex
      have hmem : pos ∈ msgAuths msg.buf msg.attrPos := by
        rw [hone]
        exact List.mem_singleton_self pos
      have hfits := (hparsed.attrs pos (List.mem_of_mem_filter hmem)).fits
      have hlength := hlen pos hone
      refine ⟨_, verifyMsgAuth_one hparsed hone (by omega), fun hcode => ⟨pos, hone, hlength, ?_⟩⟩
      by_contra hmac
      rw [if_neg hmac] at hcode
      cases hcode
    · exact ⟨1, verifyMsgAuth_refused hparsed (not_exists.1 hex), fun hcode => by cases hcode⟩

def authenticated : Octets := [2, 1, 0, 38] ++ List.replicate 16 0 ++ [80, 18] ++ List.replicate 16 0

theorem radius_verification_iff_authenticated :
    (∀ c secret reqAuth, Tolerant c ⟨authenticated, [20]⟩ secret reqAuth) ↔
      ∀ pos, msgAuths authenticated [20] = [pos] → octetAt authenticated (pos + 1) = 2 + md5MacLen :=
  radius_verification_iff (show Msg.parse authenticated = some ⟨authenticated, [20]⟩ by decide)

def emptyMsgAuth : Octets := [2, 1, 0, 22] ++ List.replicate 16 0 ++ [80, 2]

theorem verifyMsgAuth_past_end :
    Msg.parse emptyMsgAuth = some ⟨emptyMsgAuth, [20]⟩ ∧
      verifyMsgAuth zeroCrypto ⟨emptyMsgAuth, [20]⟩ [115] none = none := by
  decide

section Refinement

variable {c : Crypto} {msg : Msg} {secret : Octets} {pos : ℕ}

theorem msgAuths_eq (msg : Msg) :
    msgAuths msg.buf msg.attrPos = msg.attrPos.filter fun p => (msg.attrAt p).type = attrMessageAuthenticator := by
  refine List.filter_congr fun p _ => ?_
  rw [octetAt_eq, Msg.attrAt, decide_eq_decide, UInt8.toNat_inj]

-- With an attribute of the right length, the checked function decides as the one on attributes.
theorem verifyMsgAuth_refines {data : Octets} (h : Msg.parse data = some msg)
    (hlen : ∀ pos, msgAuths msg.buf msg.attrPos = [pos] → octetAt msg.buf (pos + 1) = 2 + md5MacLen)
    (reqAuth : Option (List.Vector UInt8 16)) :
    verifyMsgAuth c msg secret reqAuth =
      some (if msg.verifyMsgAuth c secret (reqAuth.map fun a => a.val) then 0 else 1, msg.buf) := by
  have hparsed := parsed_of_parse h
  cases hauths : msgAuths msg.buf msg.attrPos with
  | nil =>
    have hlist : msg.verifyMsgAuth c secret (reqAuth.map fun a => a.val) = false := by
      rw [Msg.verifyMsgAuth, ← msgAuths_eq, hauths]
    rw [hlist]
    exact verifyMsgAuth_refused hparsed fun pos => by simp [hauths]
  | cons p rest =>
    cases rest with
    | cons q rest =>
      have hlist : msg.verifyMsgAuth c secret (reqAuth.map fun a => a.val) = false := by
        rw [Msg.verifyMsgAuth, ← msgAuths_eq, hauths]
      rw [hlist]
      exact verifyMsgAuth_refused hparsed fun pos => by simp [hauths]
    | nil =>
      have hlist : msg.verifyMsgAuth c secret (reqAuth.map fun a => a.val) =
          decide (field msg.buf (p + 2) md5MacLen = c.hmacMd5 secret (macInput msg.buf reqAuth p)) := by
        rw [Msg.verifyMsgAuth, ← msgAuths_eq, hauths]
        cases reqAuth <;> exact decide_eq_decide.2 eq_comm
      have hmem : p ∈ msgAuths msg.buf msg.attrPos := by
        rw [hauths]
        exact List.mem_singleton_self p
      have hfits := (hparsed.attrs p (List.mem_of_mem_filter hmem)).fits
      have hlength := hlen p hauths
      rw [verifyMsgAuth_one hparsed hauths (by omega), hlist]
      simp only [decide_eq_true_eq]

theorem verifyMsgAuth_refines_authenticated :
    verifyMsgAuth zeroCrypto ⟨authenticated, [20]⟩ [115] none =
      some (if (⟨authenticated, [20]⟩ : Msg).verifyMsgAuth zeroCrypto [115]
        ((none : Option (List.Vector UInt8 16)).map fun a => a.val) then 0 else 1, authenticated) :=
  verifyMsgAuth_refines (show Msg.parse authenticated = some ⟨authenticated, [20]⟩ by decide)
    (fun pos hpos => by
      have hone : [20] = [pos] := hpos
      rw [← List.head_eq_of_cons_eq hone]
      decide) none

end Refinement

end Tolerance

end WpaSupplicant.Radius.Keys
