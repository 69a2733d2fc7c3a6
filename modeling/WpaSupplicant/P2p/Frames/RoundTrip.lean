import WpaSupplicant.P2p.Frames

namespace WpaSupplicant.P2p.Frames

open Lib.Octets Lib.Buffer Lib.Checked Lib.Records KeyData.Pointers Pointers Wps.Pointers

section Attributes

variable {pre post data buf : Octets} {msg : P2pMessage} {c : P2p.Pointers.Case} {pos : ℕ} {attrs : List (ℕ × Octets)}

theorem length_p2pAttr (a : ℕ × Octets) : (p2pAttr a).length = 3 + a.2.length := by
  rw [p2pAttr, List.length_append, List.length_cons, length_toLE]

theorem ofBE_reverse_toLE {n : ℕ} (h : n < 65536) : ofBE (toLE 2 n).reverse = n := by
  have hvalue : ofBE (toLE 2 n).reverse = 256 * (n / 256 % 256) + n % 256 := by
    simp [toLE, ofBE]
  omega

def InfoFormat (data : Octets) : Prop :=
  ∃ (addr methods pri : Octets) (num : UInt8) (types name : Octets),
    data = addr ++ methods ++ pri ++ [num] ++ types ++ toBE 2 Wps.attrDevName ++ toBE 2 name.length ++ name ∧
      addr.length = 6 ∧ methods.length = 2 ∧ pri.length = 8 ∧ types.length = num.toNat * 8 ∧ name.length ≤ 32

structure Taken (c : P2p.Pointers.Case) (data : Octets) : Prop where
  mem : c ∈ p2pCases
  least : c.least ≤ data.length
  most : data.length ≤ c.most
  short : data.length < 256
  notNull : ¬ (c.nullIgnored = true ∧ data.length = 0)
  info : c.id = attrDeviceInfo → InfoFormat data

theorem p2pCases_find : ∀ c ∈ p2pCases, p2pCases.find? (·.id = c.id) = some c := by decide

theorem p2pCases_width' : ∀ c ∈ p2pCases, c.width = 8 ∨ c.width = 64 := by decide

theorem stored_of_short {len : ℕ} (hc : c ∈ p2pCases) (h : len < 256) : c.stored len = len := by
  rw [P2p.Pointers.Case.stored]
  rcases p2pCases_width' c hc with hw | hw
  · rw [hw]
    exact Nat.mod_eq_of_lt h
  · rw [hw]
    exact Nat.mod_eq_of_lt (h.trans (by decide))

-- What is not of the attributes that were read
structure Same (msg msg' : P2pMessage) : Prop where
  rest : msg'.rest = msg.rest
  deviceName : msg'.deviceName.length = msg.deviceName.length

-- The result of a parser that takes what it is given
def Taking (P : P2pMessage → Prop) (r : Except ℤ P2pMessage) : Prop := ∃ msg, r = .ok msg ∧ P msg

theorem returns_infoFormat (hdata : InfoFormat data) (hname : msg.deviceName.length = 33) :
    Returns (deviceInfo (pre ++ data ++ post) msg pre.length data.length)
      (Taking fun msg' => Same msg msg' ∧ msg'.attr = msg.attr ∧ msg'.p2pDeviceAddr = some pre.length) := by
  obtain ⟨addr, methods, pri, num, types, name, hd, haddr, hmethods, hpri, htypes, hnlen⟩ := hdata
  have hlen : data.length = 17 + num.toNat * 8 + 4 + name.length := by
    rw [hd]
    simp only [List.length_append, List.length_singleton, length_toBE, haddr, hmethods, hpri, htypes]
  have hbuf : (pre ++ data ++ post).length = pre.length + data.length + post.length := by
    rw [List.length_append, List.length_append]
  have hread : ∀ {p k n v}, p = pre.length + k → k + n ≤ data.length → field data k n = v →
      field (pre ++ data ++ post) p n = v := by
    rintro p k n v rfl hk rfl
    exact field_middle rfl hk
  have hnum : field data 16 1 = [num] := by
    have hsplit := field_append (l := addr ++ methods ++ pri) (x := [num])
      (r := types ++ toBE 2 Wps.attrDevName ++ toBE 2 name.length ++ name) (i := 16) (n := 1)
      (by simp only [List.length_append, haddr, hmethods, hpri]) rfl
    rw [hd]
    simpa only [List.append_assoc] using hsplit
  have hheader : field data (17 + num.toNat * 8) 2 = toBE 2 Wps.attrDevName := by
    have hsplit := field_append (l := addr ++ methods ++ pri ++ [num] ++ types) (x := toBE 2 Wps.attrDevName)
      (r := toBE 2 name.length ++ name) (i := 17 + num.toNat * 8) (n := 2)
      (by simp only [List.length_append, haddr, hmethods, hpri, htypes, List.length_singleton]) (length_toBE _ _)
    rw [hd]
    simpa only [List.append_assoc] using hsplit
  have hcount : field data (17 + num.toNat * 8 + 2) 2 = toBE 2 name.length := by
    have hsplit := field_append (l := addr ++ methods ++ pri ++ [num] ++ types ++ toBE 2 Wps.attrDevName)
      (x := toBE 2 name.length) (r := name) (i := 17 + num.toNat * 8 + 2) (n := 2)
      (by simp only [List.length_append, haddr, hmethods, hpri, htypes, List.length_singleton, length_toBE])
      (length_toBE _ _)
    rw [hd]
    simpa only [List.append_assoc] using hsplit
  refine (returns_loadBE (by omega)).bind fun methods' _ => ?_
  refine (returns_loadBE (by omega)).bind fun num' hnum' => ?_
  have hn : num' = num.toNat := by
    rw [hnum', hread (by omega) (by omega) hnum]
    simp [ofBE]
  refine .ite (fun h => absurd h (by omega)) fun _ => .ite (fun h => absurd h (by omega)) fun _ => ?_
  refine (returns_loadBE (by omega)).bind fun header hheader' => ?_
  have hh : header = Wps.attrDevName := by
    rw [hheader', hread (by omega) (by omega) hheader, ofBE_toBE]
    rfl
  refine .ite (fun h => absurd hh h) fun _ => ?_
  refine (returns_loadBE (by omega)).bind fun nlen hnlen' => ?_
  have hnl : nlen = name.length := by
    rw [hnlen', hread (by omega) (by omega) hcount, ofBE_toBE]
    exact Nat.mod_eq_of_lt (by omega)
  refine .ite (fun h => absurd h (by omega)) fun _ => ?_
  have hend : pre.length + 6 + 2 + 8 + 1 + num' * 8 + 4 + nlen ≤ (pre ++ data ++ post).length := by omega
  refine (returns_load hend).bind fun octets hoctets => ?_
  have hroom : 0 + (octets ++ [0]).length ≤ msg.deviceName.length := by
    rw [List.length_append, List.length_singleton, hoctets, length_field hend, hname]
    omega
  refine (returns_store hroom).map fun stored hlength => ⟨_, rfl, ⟨rfl, ?_⟩, rfl, rfl⟩
  exact (length_printable _ _).trans hlength

structure Keeps (buf : Octets) (attrs : List (ℕ × Octets)) (msg msg' : P2pMessage) : Prop extends Same msg msg' where
  attr : ∀ c ∈ p2pCases, content buf msg' c.field = (attrs.reverse.lookup c.id).or (content buf msg c.field)
  p2pDeviceAddr : (msg'.p2pDeviceAddr.map fun p => field buf p 6) =
    ((attrs.reverse.lookup attrDeviceInfo).map (·.take 6)).or (msg.p2pDeviceAddr.map fun p => field buf p 6)

theorem lookup_single (k k' : ℕ) (data : Octets) : [(k, data)].lookup k' = if k' = k then some data else none := by
  by_cases h : k' = k
  · rw [h, List.lookup_cons_self, if_pos rfl]
  · rw [List.lookup_cons, beq_eq_false_iff_ne.2 h, if_neg h]
    rfl

theorem returns_taken (h : Taken c data) (hname : msg.deviceName.length = 33) :
    Returns (p2pParseAttribute (pre ++ data ++ post) msg c.id pre.length data.length)
      (Taking (Keeps (pre ++ data ++ post) [(c.id, data)] msg)) := by
  have hbuf : (pre ++ data ++ post).length = pre.length + data.length + post.length := by
    rw [List.length_append, List.length_append]
  have hstored := stored_of_short h.mem h.short
  have hlogged := p2pCases_logged c h.mem
  have hleast := h.least
  have hmost := h.most
  unfold p2pParseAttribute
  rw [p2pCases_find c h.mem]
  dsimp only
  rw [hstored, if_neg h.notNull, if_neg (by omega)]
  refine (returns_load (by split <;> omega)).bind fun _ _ => ?_
  have hkept : ∀ d ∈ p2pCases,
      (Function.update msg.attr c.field (some ⟨pre.length, data.length⟩) d.field).map
        (fun s => field (pre ++ data ++ post) s.off s.len) =
        ([(c.id, data)].lookup d.id).or (content (pre ++ data ++ post) msg d.field) := by
    intro d hd
    by_cases heq : d.field = c.field
    · rw [p2pCases_field d hd c h.mem heq, Function.update_self, Option.map_some, field_append rfl rfl,
        lookup_single, if_pos rfl, Option.some_or]
    have hid : d.id ≠ c.id := fun hid => heq ((p2pCases_distinct d hd c h.mem).1 hid)
    rw [Function.update_of_ne heq, lookup_single, if_neg hid, Option.none_or]
    rfl
  split
  · rename_i hinfo
    refine Returns.mono (returns_infoFormat (h.info hinfo) hname) ?_
    rintro res ⟨msg', rfl, hsame, hattr, haddr⟩
    refine ⟨msg', rfl, ⟨hsame.rest, hsame.deviceName⟩, ?_, ?_⟩
    · intro d hd
      rw [content, hattr]
      exact hkept d hd
    · obtain ⟨addr, methods, pri, num, types, name, hd, haddr', -⟩ := h.info hinfo
      have hsix : data.take 6 = addr := by
        rw [hd]
        simp [← haddr']
      have hlen : 6 ≤ data.length := by
        rw [p2pCases_deviceInfo c h.mem hinfo] at hleast
        omega
      have hfield : field (pre ++ data ++ post) (pre.length + 0) 6 = field data 0 6 := field_middle rfl (by omega)
      rw [haddr, Option.map_some, hinfo, List.reverse_singleton, lookup_single, if_pos rfl, Option.map_some,
        Option.some_or]
      exact congrArg some hfield
  · rename_i hinfo
    refine .pure ⟨_, rfl, ⟨rfl, rfl⟩, hkept, ?_⟩
    rw [List.reverse_singleton, lookup_single, if_neg fun hid => hinfo hid.symm, Option.map_none, Option.none_or]

theorem Keeps.trans {a : ℕ × Octets} {msg₁ msg₂ : P2pMessage} (h : Keeps buf [a] msg msg₁)
    (h' : Keeps buf attrs msg₁ msg₂) : Keeps buf (a :: attrs) msg msg₂ where
  rest := h'.rest.trans h.rest
  deviceName := h'.deviceName.trans h.deviceName
  attr d hd := by
    rw [h'.attr d hd, h.attr d hd, List.reverse_singleton, List.reverse_cons, List.lookup_append, Option.or_assoc]
  p2pDeviceAddr := by
    rw [h'.p2pDeviceAddr, h.p2pDeviceAddr, List.reverse_singleton, List.reverse_cons, List.lookup_append]
    cases attrs.reverse.lookup attrDeviceInfo <;> rfl

theorem p2pCases_id : ∀ c ∈ p2pCases, c.id < 256 := by decide

theorem returns_attrs (h : ∀ a ∈ attrs, ∃ c, c.id = a.1 ∧ Taken c a.2) (hname : msg.deviceName.length = 33)
    (pre : Octets) :
    Returns (parseP2pFrom (pre ++ attrs.flatMap p2pAttr) pre.length msg)
      (Taking (Keeps (pre ++ attrs.flatMap p2pAttr) attrs msg)) := by
  induction attrs generalizing pre msg with
  | nil =>
    rw [List.flatMap_nil, List.append_nil, parseP2pFrom, if_neg (lt_irrefl _)]
    exact .pure ⟨msg, rfl, ⟨rfl, rfl⟩, fun c _ => rfl, rfl⟩
  | cons a l ih =>
    obtain ⟨⟨c, hid, htaken⟩, hrest⟩ := List.forall_mem_cons.1 h
    have hhead : (pre ++ UInt8.ofNat a.1 :: toLE 2 a.2.length).length = pre.length + 3 := by
      rw [List.length_append, List.length_cons, length_toLE]
    have hbuf : pre ++ (a :: l).flatMap p2pAttr =
        pre ++ (UInt8.ofNat a.1 :: toLE 2 a.2.length) ++ a.2 ++ l.flatMap p2pAttr := by
      rw [List.flatMap_cons, p2pAttr]
      simp only [List.append_assoc]
    have hlen : (pre ++ (a :: l).flatMap p2pAttr).length = pre.length + 3 + a.2.length + (l.flatMap p2pAttr).length := by
      rw [hbuf, List.length_append, List.length_append, hhead]
    have hlow := p2pCases_id c htaken.mem
    have hshort := htaken.short
    have hload : loadLE16 (pre ++ (a :: l).flatMap p2pAttr) (pre.length + 1) = some a.2.length := by
      have hfield : field (pre ++ (a :: l).flatMap p2pAttr) (pre.length + 1) 2 = toLE 2 a.2.length := by
        have hsplit := field_append (l := pre ++ [UInt8.ofNat a.1]) (x := toLE 2 a.2.length)
          (r := a.2 ++ l.flatMap p2pAttr) List.length_append (length_toLE _ _)
        rw [List.flatMap_cons, p2pAttr]
        simpa only [List.append_assoc, List.cons_append, List.nil_append, List.length_singleton] using hsplit
      rw [loadLE16, load_eq (by omega), Option.map_some, hfield, ofBE_reverse_toLE (by omega)]
    have hidload : loadBE (pre ++ (a :: l).flatMap p2pAttr) pre.length 1 = some c.id := by
      have hsplit := field_append (l := pre) (x := [UInt8.ofNat a.1])
        (r := toLE 2 a.2.length ++ a.2 ++ l.flatMap p2pAttr) rfl rfl
      have hfield : field (pre ++ (a :: l).flatMap p2pAttr) pre.length 1 = [UInt8.ofNat a.1] := by
        rw [List.flatMap_cons, p2pAttr]
        simpa only [List.append_assoc, List.cons_append, List.nil_append, List.length_singleton] using hsplit
      have hvalue : ofBE [UInt8.ofNat a.1] = a.1 % 256 := by simp [ofBE]
      rw [loadBE, load_eq (by omega), Option.map_some, hfield, hvalue, ← hid, Nat.mod_eq_of_lt hlow]
    rw [parseP2pFrom, if_pos (by omega), if_neg (by omega), hload, Option.bind_some, if_neg (by omega), hidload,
      Option.bind_some, hbuf]
    have hstep : Returns (p2pParseAttribute (pre ++ UInt8.ofNat a.1 :: toLE 2 a.2.length ++ a.2 ++
        l.flatMap p2pAttr) msg c.id _ _) _ := returns_taken htaken hname
    rw [hhead] at hstep
    refine hstep.bind ?_
    rintro res ⟨msg₁, rfl, hkeeps⟩
    have hnext := ih hrest (hkeeps.deviceName.trans hname) (pre ++ UInt8.ofNat a.1 :: toLE 2 a.2.length ++ a.2)
    rw [List.length_append, hhead] at hnext
    refine hnext.mono ?_
    rintro res ⟨msg₂, rfl, hkeeps'⟩
    rw [hid] at hkeeps
    exact ⟨msg₂, rfl, hkeeps.trans hkeeps'⟩

end Attributes

section WpsAttributes

open Wps

variable {b : Build} {attrs : ParseAttr} {l : List (ℕ × Octets)} {exts : List Octets} {e : Octets} {pos : ℕ}
  {msg : P2pMessage}

def otherCount (attrs : ParseAttr) : ℕ :=
  (List.filter (fun a => a.type = attrVendorExt && otherVendorExt a.value) attrs).length

def accepts (attrs : ParseAttr) (pos : ℕ) : List (ℕ × Octets) → Bool
  | [] => true
  | a :: l => setAttr attrs a.1 a.2 && accepts (⟨a.1, pos + 4, a.2⟩ :: attrs) (pos + 4 + a.2.length) l

theorem parseLoop_accepts (fuel prev : ℕ) (hl : Writable l) (hzero : ∀ a ∈ l, a.1 ≠ 0)
    (hfuel : (plain l).length < fuel) :
    parseLoop fuel prev pos attrs (plain l) = if accepts attrs pos l then some (place pos l ++ attrs) else none := by
  induction fuel generalizing prev pos attrs l with
  | zero => omega
  | succ fuel ih =>
    cases l with
    | nil => rfl
    | cons a l =>
      obtain ⟨⟨htype, hlen⟩, hrest⟩ := List.forall_mem_cons.1 hl
      obtain ⟨hne, hzero⟩ := List.forall_mem_cons.1 hzero
      have hless : (plain (a :: l)).length = 4 + a.2.length + (plain l).length := by
        rw [plain_cons]
        simp only [List.length_append, length_toBE]
      rw [parseLoop_cons fuel prev htype hlen, if_neg fun h => hne h.1, accepts, place]
      cases setAttr attrs a.1 a.2 with
      | false => rfl
      | true =>
        rw [if_pos rfl, Bool.true_and, ih a.1 hrest hzero (by omega), List.append_assoc]
        rfl

theorem parseMsg_plain (hl : Writable l) (hzero : ∀ a ∈ l, a.1 ≠ 0) :
    parseMsg (plain l) = if accepts [] 0 l then some (place 0 l) else none := by
  rw [parseMsg, parseLoop_accepts _ _ hl hzero (Nat.lt_succ_self _), List.append_nil]

theorem parseVendorExt_count (h : otherCount attrs < 10) : parseVendorExt attrs e = parseVendorExt [] e := by
  rw [parseVendorExt, parseVendorExt]
  have hcount : (List.filter (fun a => a.type = attrVendorExt && otherVendorExt a.value) attrs).length < 10 := h
  rw [decide_eq_true hcount]
  rfl

theorem accepts_exts (h : otherCount attrs + exts.length ≤ 10) :
    accepts attrs pos (exts.map fun e => (attrVendorExt, e)) = exts.all (parseVendorExt []) := by
  induction exts generalizing attrs pos with
  | nil => rfl
  | cons e exts ih =>
    rw [List.length_cons] at h
    have hset : setAttr attrs attrVendorExt e = parseVendorExt attrs e := rfl
    have hmore : otherCount (⟨attrVendorExt, pos + 4, e⟩ :: attrs) ≤ otherCount attrs + 1 := by
      rw [otherCount, List.filter_cons]
      split
      · exact Nat.le_refl _
      · exact Nat.le_succ _
    rw [List.map_cons, accepts, List.all_cons, hset, parseVendorExt_count (by omega),
      ih (Nat.le_trans (Nat.add_le_add_right hmore _) (by omega))]

theorem length_vendorExts (room : ℕ) (l : List Octets) : (vendorExts room l).length ≤ l.length := by
  induction l generalizing room with
  | nil => exact Nat.le_refl _
  | cons e l ih =>
    rw [vendorExts]
    split
    · exact (ih _).trans (Nat.le_succ _)
    · exact Nat.succ_le_succ (ih _)

theorem accepts_fixed (b : Build) {pwId : ℕ} (h : exts.length ≤ 10) :
    accepts [] 0 (wpsFixed b pwId ++ exts.map fun e => (attrVendorExt, e)) = exts.all (parseVendorExt []) := by
  have hid : ∀ attrs, setAttr attrs attrDevPasswordId (toBE 2 pwId) = true := fun attrs => rfl
  have hversion : ∀ attrs, setAttr attrs attrVersion [0x10] = true := fun attrs => rfl
  have hext : ∀ attrs, setAttr attrs attrVendorExt (toBE 3 vendorIdWfa ++ [0, 1, 0x20]) = true := fun attrs => rfl
  rw [wpsFixed]
  cases b.wps2 with
  | true =>
    simp only [if_true, List.cons_append, List.nil_append, accepts, hversion, hid, hext, Bool.true_and]
    refine accepts_exts ?_
    change 0 + exts.length ≤ 10
    omega
  | false =>
    simp only [Bool.false_eq_true, if_false, List.cons_append, List.nil_append, accepts, hversion, hid, Bool.true_and]
    refine accepts_exts ?_
    change 0 + exts.length ≤ 10
    omega

theorem length_le_plain {a : ℕ × Octets} (h : a ∈ l) : a.2.length ≤ (plain l).length := by
  have hle : (tlv a.1 a.2).length ≤ (plain l).length :=
    length_le_flatMap (f := fun a : ℕ × Octets => tlv a.1 a.2) h
  rw [length_tlv] at hle
  omega

def wpsAttrs (b : Build) (pwId : ℕ) (exts : List Octets) : List (ℕ × Octets) :=
  wpsFixed b pwId ++ exts.map fun e => (attrVendorExt, e)

variable {pwId : ℕ}

theorem mem_wpsAttrs {a : ℕ × Octets} (h : a ∈ wpsAttrs b pwId exts) :
    a.1 = attrVersion ∨ (a.1 = attrDevPasswordId ∧ a.2 = toBE 2 pwId) ∨ a.1 = attrVendorExt := by
  rw [wpsAttrs, wpsFixed] at h
  rcases List.mem_append.1 h with h | h
  · rcases List.mem_append.1 h with h | h
    · simp only [List.mem_cons, List.not_mem_nil, or_false] at h
      rcases h with rfl | rfl
      · exact .inl rfl
      · exact .inr (.inl ⟨rfl, rfl⟩)
    split at h
    · rw [List.mem_singleton] at h
      rw [h]
      exact .inr (.inr rfl)
    · cases h
  · obtain ⟨e, -, rfl⟩ := List.mem_map.1 h
    exact .inr (.inr rfl)

theorem wpsAttrs_ne_zero : ∀ a ∈ wpsAttrs b pwId exts, a.1 ≠ 0 := by
  intro a ha
  rcases mem_wpsAttrs ha with h | ⟨h, -⟩ | h <;> rw [h] <;> decide

theorem writable_wpsAttrs (hshort : (plain (wpsAttrs b pwId exts)).length < 65536) :
    Writable (wpsAttrs b pwId exts) := by
  intro a ha
  refine ⟨?_, (length_le_plain ha).trans_lt hshort⟩
  rcases mem_wpsAttrs ha with h | ⟨h, -⟩ | h <;> rw [h] <;> decide

theorem single_devPasswordId (b : Build) (exts : List Octets) (pwId : ℕ) :
    ∃ a ∈ place 0 (wpsAttrs b pwId exts),
      (fieldsOf (plain (wpsAttrs b pwId exts)) (place 0 (wpsAttrs b pwId exts))).single .devPasswordId = some a.slice ∧
        a.value = toBE 2 pwId := by
  have hcase : attrCases.find? (·.field = .devPasswordId) = some ⟨attrDevPasswordId, .devPasswordId, .exactly 2⟩ := rfl
  rw [single_attr hcase]
  cases hfind : ParseAttr.find (place 0 (wpsAttrs b pwId exts)) attrDevPasswordId with
  | none =>
    have hmem : (⟨attrDevPasswordId, 9, toBE 2 pwId⟩ : Attr) ∈ place 0 (wpsAttrs b pwId exts) := by
      simp [wpsAttrs, wpsFixed, place]
    exact absurd (decide_eq_true rfl) (List.find?_eq_none.1 hfind _ hmem)
  | some a =>
    have hmem : a ∈ place 0 (wpsAttrs b pwId exts) := List.mem_of_find?_eq_some hfind
    have hfirst : List.find? (fun x : Attr => decide (x.type = attrDevPasswordId)) (place 0 (wpsAttrs b pwId exts)) =
        some a := hfind
    have htype : a.type = attrDevPasswordId := by simpa using List.find?_some hfirst
    refine ⟨a, hmem, rfl, ?_⟩
    rcases mem_wpsAttrs (mem_of_place hmem) with h | ⟨-, h⟩ | h
    · exact absurd (htype.symm.trans h) (by decide)
    · exact h
    · exact absurd (htype.symm.trans h) (by decide)

theorem returns_wpsIe (hpw : pwId < 65536) (hexts : exts.length ≤ 10)
    (hshort : (plain (wpsAttrs b pwId exts)).length < 65536) (hname : msg.deviceName.length = 33) :
    Returns (p2pParseWpsIe (plain (wpsAttrs b pwId exts)) msg) fun r =>
      if exts.all (parseVendorExt []) then
        Taking (fun msg' => msg'.notWps = msg.notWps ∧ msg'.deviceName.length = 33 ∧ msg'.devPasswordId = pwId) r
      else r = .error (-1) := by
  have hparse : wpsParseMsg (plain (wpsAttrs b pwId exts)) = some (outcome (plain (wpsAttrs b pwId exts))
      (if exts.all (parseVendorExt []) then some (place 0 (wpsAttrs b pwId exts)) else none)) := by
    rw [wpsParseMsg_eq, parseMsg_plain (writable_wpsAttrs hshort) wpsAttrs_ne_zero, wpsAttrs, accepts_fixed b hexts]
  rw [p2pParseWpsIe, hparse, Option.bind_some]
  by_cases hall : exts.all (parseVendorExt []) = true
  · rw [if_pos hall] at hparse
    simp only [if_pos hall]
    have hin := parseFrom_inside inside_empty hparse
    obtain ⟨a, hmem, hsingle, hvalue⟩ := single_devPasswordId b exts pwId
    have hroom := hin.fixed _ _ 2 hsingle rfl
    have hfield := place_values [] hmem
    rw [hvalue, length_toBE, List.nil_append] at hfield
    refine (returns_wpsDeviceName fun t ht => hin.single _ t ht).bind fun name hlength => ?_
    refine (returns_be16Or fun t ht => hin.fixed _ t 2 ht rfl).bind fun methods _ => ?_
    have hid : be16Or (plain (wpsAttrs b pwId exts)) (some a.slice) msg.devPasswordId = some pwId := by
      rw [be16Or, loadBE, load_eq hroom, Option.map_some]
      change some (ofBE (field _ a.pos 2)) = _
      rw [hfield, ofBE_toBE]
      exact congrArg some (Nat.mod_eq_of_lt hpw)
    rw [hsingle, hid]
    exact .pure ⟨_, rfl, rfl, hlength.trans hname, rfl⟩
  · simp only [if_neg hall]
    exact .pure rfl

end WpsAttributes

section Elements

variable {pre post c ies : Octets} {cs : List Octets} {t : ℕ}

theorem octet_append (pre : Octets) (x : UInt8) (post : Octets) : octet (pre ++ x :: post) pre.length = x := by
  rw [octet, List.getD_eq_getElem?_getD, List.getElem?_append_right (Nat.le_refl _), Nat.sub_self]
  rfl

structure Whole (c : Octets) : Prop where
  least : 4 ≤ c.length
  short : c.length < 256

theorem element_head (h : Whole c) (hies : ies = pre ++ element c ++ post) :
    (octet ies pre.length).toNat = 221 ∧ lengthAt ies pre.length = c.length ∧
      ∀ k n, k + n ≤ c.length → field ies (pre.length + 2 + k) n = field c k n := by
  have hsplit : ies = pre ++ 221 :: (UInt8.ofNat c.length :: c ++ post) := by
    rw [hies, element, List.append_assoc]
    rfl
  have hsplit' : ies = (pre ++ [221]) ++ UInt8.ofNat c.length :: (c ++ post) := by
    rw [hsplit, List.append_assoc]
    rfl
  have hsplit'' : ies = (pre ++ [221, UInt8.ofNat c.length]) ++ c ++ post := by
    rw [hsplit, List.append_assoc, List.append_assoc]
    rfl
  refine ⟨?_, ?_, ?_⟩
  · rw [hsplit, octet_append]
    rfl
  · have hone : pre.length + 1 = (pre ++ [221]).length := by rw [List.length_append]; rfl
    rw [lengthAt, hone, hsplit', octet_append, UInt8.toNat_ofNat']
    exact Nat.mod_eq_of_lt h.short
  · intro k n hk
    rw [hsplit'']
    exact field_middle (by rw [List.length_append]; rfl) hk

def ofType (t : ℕ) (c : Octets) : Bool := ofBE (c.take 4) = t

theorem vendor_elements (h : ∀ c ∈ cs, Whole c) (pre : Octets) (hies : ies = pre ++ cs.flatMap element) :
    ((records (elemSize ies) pre.length ies.length).filter (isVendor ies t)).map (vendorData ies) =
      (cs.filter (ofType t)).map (·.drop 4) := by
  induction cs generalizing pre with
  | nil =>
    rw [List.flatMap_nil, List.append_nil] at hies
    rw [hies, records_nil (by rw [elemSize]; omega)]
    rfl
  | cons c cs ih =>
    obtain ⟨hc, hcs⟩ := List.forall_mem_cons.1 h
    rw [List.flatMap_cons, ← List.append_assoc] at hies
    obtain ⟨hid, hlen, hfield⟩ := element_head hc hies
    have hsize : elemSize ies pre.length = 2 + c.length := congrArg (2 + ·) hlen
    have helem : (pre ++ element c).length = pre.length + (2 + c.length) := by
      rw [List.length_append, element, List.length_cons, List.length_cons]
      omega
    have hies' : ies.length = pre.length + (2 + c.length) + (cs.flatMap element).length := by
      rw [hies, List.length_append, helem]
    have hnext := ih hcs (pre ++ element c) hies
    rw [helem] at hnext
    have hleast := hc.least
    have htype : field ies (pre.length + 2) 4 = c.take 4 := hfield 0 4 (by omega)
    have hdata : vendorData ies pre.length = c.drop 4 := by
      have hrest := hfield 4 (c.length - 4) (by omega)
      rw [vendorData, hlen, hrest, field, List.take_of_length_le (by rw [List.length_drop])]
    have hvendor : isVendor ies t pre.length = ofType t c := by
      rw [isVendor, hid, hlen, htype, decide_eq_true rfl, decide_eq_true hleast, Bool.true_and, Bool.true_and]
      rfl
    rw [records_cons (by omega) (by omega), hsize]
    by_cases heq : ofType t c = true
    · rw [List.filter_cons_of_pos (hvendor.trans heq), List.filter_cons_of_pos heq, List.map_cons, List.map_cons, hdata,
        hnext]
    · rw [List.filter_cons_of_neg (by rwa [hvendor]), List.filter_cons_of_neg heq, hnext]

theorem vendorBuffer_elements (h : ∀ c ∈ cs, Whole c) :
    vendorBuffer (cs.flatMap element) t =
      if (cs.filter (ofType t)) = [] then none
      else some ((cs.filter (ofType t)).flatMap (·.drop 4)) := by
  have hmap := vendor_elements (t := t) h [] rfl
  rw [List.nil_append] at hmap
  generalize cs.flatMap element = ies at hmap ⊢
  change List.map _ ((elements ies).filter _) = _ at hmap
  have hiff : (elements ies).filter (isVendor ies t) = [] ↔ (cs.filter (ofType t)) = [] := by
    rw [← List.map_eq_nil_iff (f := vendorData ies), hmap, List.map_eq_nil_iff]
  rw [vendorBuffer, vendorOctets, List.flatMap_def, List.flatMap_def, hmap]
  simp only [hiff]

end Elements

section Messages

variable {b : Build} {attrs : List (ℕ × Octets)} {msg : P2pMessage} {token : UInt8} {pwId : ℕ} {exts : List Octets}

def view (dialogToken : UInt8) (devPasswordId : ℕ) (attrs : List (ℕ × Octets)) : Message :=
  let data (id : ℕ) := attrs.reverse.lookup id
  { dialogToken
    capability := (data 2).map fun l => toDevCapab (l.getD 0 0).toNat
    goIntent := (data 4).map (·.getD 0 0)
    status := (data 0).map (·.getD 0 0)
    listenChannel := (data 6).map toChannel
    operatingChannel := (data 17).map toChannel
    channelList := data 11
    intendedAddr := (data 9).map (getBE 48)
    deviceAddr := (data attrDeviceInfo).map fun l => getBE 48 (l.take 6)
    groupId := (data 15).map fun l => (getBE 48 (l.take 6), l.drop 6)
    devPasswordId }

def AllTaken (attrs : List (ℕ × Octets)) : Prop := ∀ a ∈ attrs, ∃ c, c.id = a.1 ∧ Taken c a.2

structure Empty (msg : P2pMessage) : Prop where
  attr : msg.attr = fun _ => none
  p2pDeviceAddr : msg.p2pDeviceAddr = none
  deviceName : msg.deviceName.length = 33

theorem returns_view (h : AllTaken attrs) (hmsg : Empty msg) :
    Returns (p2pParseP2pIe (attrs.flatMap p2pAttr) { msg with p2pAttributes := some (attrs.flatMap p2pAttr) })
      (Taking fun msg' => toMessage msg' = view msg.dialogToken msg.devPasswordId attrs) := by
  have hattrs : Returns (parseP2pFrom _ _ { msg with p2pAttributes := some (attrs.flatMap p2pAttr) }) _ :=
    returns_attrs h (by exact hmsg.deviceName) []
  rw [List.nil_append] at hattrs
  refine hattrs.mono ?_
  rintro res ⟨msg', rfl, hkeeps⟩
  refine ⟨msg', rfl, ?_⟩
  have hbuf : msg'.p2pBuf = attrs.flatMap p2pAttr :=
    congrArg (Option.getD · []) (congrArg P2pMessage.p2pAttributes hkeeps.rest)
  have htoken := congrArg P2pMessage.dialogToken hkeeps.rest
  change msg'.dialogToken = msg.dialogToken at htoken
  have hid := congrArg P2pMessage.devPasswordId hkeeps.rest
  change msg'.devPasswordId = msg.devPasswordId at hid
  have hdata : ∀ c ∈ p2pCases, content (attrs.flatMap p2pAttr) msg' c.field = attrs.reverse.lookup c.id := by
    intro c hc
    have hnone : content (attrs.flatMap p2pAttr) { msg with p2pAttributes := some (attrs.flatMap p2pAttr) } c.field =
        none := by
      rw [content, hmsg.attr]
      rfl
    rw [hkeeps.attr c hc, hnone, Option.or_none]
  have haddr := hkeeps.p2pDeviceAddr
  dsimp only at haddr
  rw [hmsg.p2pDeviceAddr, Option.map_none, Option.or_none] at haddr
  have hview : (msg'.p2pDeviceAddr.map fun p => getBE 48 (field (attrs.flatMap p2pAttr) p 6)) =
      (attrs.reverse.lookup attrDeviceInfo).map fun l => getBE 48 (l.take 6) := by
    have hboth := congrArg (Option.map (getBE 48)) haddr
    rw [Option.map_map, Option.map_map] at hboth
    exact hboth
  have hcapab := hdata { id := 2, field := .capability, least := 2, logged := 2 } (by decide)
  have hintent := hdata { id := 4, field := .goIntent, least := 1, logged := 1 } (by decide)
  have hstatus := hdata { id := 0, field := .status, least := 1, logged := 1 } (by decide)
  have hlisten := hdata { id := 6, field := .listenChannel, least := 5, nullIgnored := true, logged := 5 } (by decide)
  have hoper := hdata { id := 17, field := .operatingChannel, least := 5, nullIgnored := true, logged := 5 } (by decide)
  have hlist := hdata { id := 11, field := .channelList, least := 3, width := 8, logged := 3, dumped := true } (by decide)
  have hintended := hdata { id := 9, field := .intendedAddr, least := 6, logged := 6 } (by decide)
  have hgroup := hdata { id := 15, field := .groupId, least := 6, most := 6 + 32, logged := 6, dumped := true } (by decide)
  unfold toMessage
  dsimp only
  rw [hbuf, hcapab, hintent, hstatus, hlisten, hoper, hlist, hintended, hgroup, hview, htoken, hid]
  rfl

theorem ofType_content {t t' : ℕ} (ht : t < 256 ^ 4) (x : Octets) : ofType t' (toBE 4 t ++ x) = decide (t = t') := by
  rw [ofType, List.take_left' (length_toBE 4 t), ofBE_toBE, Nat.mod_eq_of_lt ht]

theorem drop_content (t : ℕ) (x : Octets) : (toBE 4 t ++ x).drop 4 = x := List.drop_left' (length_toBE 4 t)

theorem p2pContent_type : ofType p2pIeVendorType (p2pContent attrs) = true := ofType_content (by decide) _

theorem p2pContent_not_wps : ¬ ofType wpsDevOuiWfa (p2pContent attrs) = true := by
  rw [p2pContent, ofType_content (by decide)]
  decide

theorem empty_fresh {dsParams ssid : Option ℕ} {wpsAttributes : Option Octets} :
    Empty { fresh token with dsParams, ssid, wpsAttributes } := ⟨rfl, rfl, rfl⟩

theorem returns_p2pOnly (token : UInt8) (h : AllTaken attrs) (hwhole : Whole (p2pContent attrs)) :
    Returns (p2pParse (token :: [p2pContent attrs].flatMap element)) (Taking fun msg => toMessage msg = view token 0 attrs) := by
  have hall : ∀ c ∈ [p2pContent attrs], Whole c := fun c hc => by rwa [List.mem_singleton.1 hc]
  have hp2p : vendorBuffer ([p2pContent attrs].flatMap element) p2pIeVendorType = some (attrs.flatMap p2pAttr) := by
    rw [vendorBuffer_elements hall, List.filter_cons_of_pos p2pContent_type, List.filter_nil,
      if_neg (List.cons_ne_nil _ _), List.flatMap_singleton, p2pContent, drop_content]
  have hwps : vendorBuffer ([p2pContent attrs].flatMap element) wpsDevOuiWfa = none := by
    rw [vendorBuffer_elements hall, List.filter_cons_of_neg p2pContent_not_wps, List.filter_nil, if_pos rfl]
  refine (returns_parseElems {} (Nat.zero_le _) fun s hs => by cases hs).bind fun elems _ => ?_
  refine (returns_vendorIeConcat).bind fun wpsAttributes hattrs => ?_
  rw [hwps] at hattrs
  rw [hattrs]
  change Returns ((vendorIeConcat _ _).bind _) _
  refine (returns_vendorIeConcat).bind fun p2pAttributes hattrs' => ?_
  rw [hp2p] at hattrs'
  rw [hattrs']
  exact returns_view h empty_fresh

def wpsContent (b : Build) (pwId : ℕ) (exts : List Octets) : Octets := toBE 4 wpsDevOuiWfa ++ plain (wpsAttrs b pwId exts)

theorem wpsContent_type : ofType wpsDevOuiWfa (wpsContent b pwId exts) = true := ofType_content (by decide) _

theorem wpsContent_not_p2p : ¬ ofType p2pIeVendorType (wpsContent b pwId exts) = true := by
  rw [wpsContent, ofType_content (by decide)]
  decide

theorem returns_withWps (token : UInt8) (h : AllTaken attrs) (hp2p : Whole (p2pContent attrs))
    (hwps : Whole (wpsContent b pwId exts)) (hpw : pwId < 65536) (hexts : exts.length ≤ 10) :
    Returns (p2pParse (token :: [p2pContent attrs, wpsContent b pwId exts].flatMap element)) fun r =>
      if exts.all (Wps.parseVendorExt []) then Taking (fun msg => toMessage msg = view token pwId attrs) r
      else r = .error (-1) := by
  have hall : ∀ c ∈ [p2pContent attrs, wpsContent b pwId exts], Whole c :=
    List.forall_mem_cons.2 ⟨hp2p, fun c hc => by rwa [List.mem_singleton.1 hc]⟩
  have hbuf : vendorBuffer ([p2pContent attrs, wpsContent b pwId exts].flatMap element) p2pIeVendorType =
      some (attrs.flatMap p2pAttr) := by
    rw [vendorBuffer_elements hall, List.filter_cons_of_pos p2pContent_type, List.filter_cons_of_neg wpsContent_not_p2p,
      List.filter_nil, if_neg (List.cons_ne_nil _ _), List.flatMap_singleton, p2pContent, drop_content]
  have hbuf' : vendorBuffer ([p2pContent attrs, wpsContent b pwId exts].flatMap element) wpsDevOuiWfa =
      some (plain (wpsAttrs b pwId exts)) := by
    rw [vendorBuffer_elements hall, List.filter_cons_of_neg p2pContent_not_wps, List.filter_cons_of_pos wpsContent_type,
      List.filter_nil, if_neg (List.cons_ne_nil _ _), List.flatMap_singleton, wpsContent, drop_content]
  have hshort : (plain (wpsAttrs b pwId exts)).length < 65536 := by
    have hlen := hwps.short
    rw [wpsContent, List.length_append] at hlen
    omega
  refine (returns_parseElems {} (Nat.zero_le _) fun s hs => by cases hs).bind fun elems _ => ?_
  refine (returns_vendorIeConcat).bind fun wpsAttributes hattrs => ?_
  rw [hbuf'] at hattrs
  rw [hattrs]
  refine (returns_wpsIe hpw hexts hshort rfl).bind fun res hres => ?_
  by_cases hok : exts.all (Wps.parseVendorExt []) = true
  · simp only [if_pos hok] at hres ⊢
    obtain ⟨msg, rfl, hnot, hname, rfl⟩ := hres
    have htoken := congrArg P2pMessage.dialogToken hnot
    change msg.dialogToken = token at htoken
    refine (returns_vendorIeConcat).bind fun p2pAttributes hattrs' => ?_
    rw [hbuf] at hattrs'
    rw [hattrs', ← htoken]
    have hattr := congrArg P2pMessage.attr hnot
    have haddr := congrArg P2pMessage.p2pDeviceAddr hnot
    exact returns_view h ⟨hattr, haddr, hname⟩
  · simp only [if_neg hok] at hres ⊢
    rw [hres]
    exact .pure rfl

end Messages

section Builders

variable {b : Build} {attrs : List (ℕ × Octets)} {a : ℕ × Octets} {data : Octets} {n : ℕ}

-- An attribute that the parser takes where it is short
def Fitting (a : ℕ × Octets) : Prop :=
  ∃ c, p2pCases.find? (·.id = a.1) = some c ∧ c.least ≤ a.2.length ∧ (a.2.length < 256 → a.2.length ≤ c.most) ∧
    (c.nullIgnored = true → a.2.length ≠ 0) ∧ (c.id = attrDeviceInfo → InfoFormat a.2)

theorem length_p2pContent (attrs : List (ℕ × Octets)) :
    (p2pContent attrs).length = 4 + (attrs.map fun a => 3 + a.2.length).sum := by
  rw [p2pContent, List.length_append, length_toBE, List.length_flatMap]
  simp only [length_p2pAttr]

theorem allTaken_of_fitting (h : ∀ a ∈ attrs, Fitting a) (hshort : (p2pContent attrs).length < 256) : AllTaken attrs := by
  intro a ha
  obtain ⟨c, hfind, hleast, hmost, hnull, hinfo⟩ := h a ha
  obtain ⟨hc, hid⟩ := Lib.FirstMatch.find_key hfind
  have hle : (p2pAttr a).length ≤ (attrs.flatMap p2pAttr).length := length_le_flatMap ha
  rw [length_p2pAttr] at hle
  rw [p2pContent, List.length_append] at hshort
  exact ⟨c, hid, hc, hleast, hmost (by omega), by omega, fun h => hnull h.1 h.2, hinfo⟩

theorem fitting_of_length {id : ℕ} (hlen : data.length = n)
    (h : (p2pCases.find? (·.id = id)).any fun c =>
      c.least ≤ n && n ≤ c.most && (!c.nullIgnored || n ≠ 0) && c.id ≠ attrDeviceInfo) : Fitting (id, data) := by
  obtain ⟨c, hfind, hc⟩ := (Option.any_eq_true _ _).1 h
  simp only [Bool.and_eq_true, Bool.or_eq_true, Bool.not_eq_true', decide_eq_true_eq] at hc
  obtain ⟨⟨⟨hleast, hmost⟩, hnull⟩, hinfo⟩ := hc
  refine ⟨c, hfind, by rwa [hlen], fun _ => by rwa [hlen], fun h => ?_, fun h => absurd h hinfo⟩
  rw [hlen]
  exact hnull.resolve_left (by rw [h]; exact Bool.noConfusion)

theorem fitting_capability {devCapab groupCapab : UInt8} : Fitting (p2pBufAddCapability devCapab groupCapab) :=
  fitting_of_length (n := 2) rfl (by decide)

theorem fitting_goIntent {goIntent : UInt8} : Fitting (p2pBufAddGoIntent goIntent) :=
  fitting_of_length (n := 1) rfl (by decide)

theorem fitting_listenChannel {c : ChannelAttr} : Fitting (p2pBufAddListenChannel c) :=
  fitting_of_length (n := 5) rfl (by decide)

theorem fitting_operatingChannel {c : ChannelAttr} : Fitting (p2pBufAddOperatingChannel c) :=
  fitting_of_length (n := 5) rfl (by decide)

variable {status : UInt8} {peer : Device} {flags : PeerFlags}

theorem fitting_status : Fitting (p2pBufAddStatus status) :=
  fitting_of_length (n := 1) rfl (by decide)

theorem fitting_configTimeout {goTimeout clientTimeout : UInt8} :
    Fitting (p2pBufAddConfigTimeout goTimeout clientTimeout) :=
  fitting_of_length (n := 2) rfl (by decide)

theorem fitting_intendedAddr {addr : Addr} : Fitting (p2pBufAddIntendedAddr addr) :=
  fitting_of_length (n := 6) (length_toBE 6 _) (by decide)

theorem fitting_extListenTiming {period interval : ℕ} : Fitting (p2pBufAddExtListenTiming period interval) :=
  fitting_of_length (n := 4) rfl (by decide)

theorem fitting_channelList {channels : Channels} : Fitting (p2pBufAddChannelList b channels) := by
  refine ⟨{ id := 11, field := .channelList, least := 3, width := 8, logged := 3, dumped := true }, rfl, ?_, ?_, ?_, ?_⟩
  · exact Nat.le_add_left 3 _
  · intro h
    exact h.le.trans (by decide)
  · exact fun h => by cases h
  · exact fun h => absurd h (by decide)

theorem fitting_groupId : Fitting (p2pBufAddGroupId b.p2p.cfg.devAddr b.p2p.ssid) := by
  have hlen : (p2pBufAddGroupId b.p2p.cfg.devAddr b.p2p.ssid).2.length = 6 + b.p2p.ssid.length := by
    rw [p2pBufAddGroupId, List.length_append, putBE, length_toBE]
  have hssid := b.ssid_le
  refine ⟨{ id := 15, field := .groupId, least := 6, most := 6 + 32, logged := 6, dumped := true }, rfl, ?_, ?_, ?_, ?_⟩
  · rw [hlen]
    exact Nat.le_add_right 6 _
  · intro _
    rw [hlen]
    dsimp only
    omega
  · exact fun h => by cases h
  · exact fun h => absurd h (by decide)

theorem length_secDevType : (b.secDevType.flatMap (·.val)).length = b.secDevType.length * 8 := by
  induction b.secDevType with
  | nil => rfl
  | cons t l ih => rw [List.flatMap_cons, List.length_append, ih, t.property, List.length_cons]; omega

theorem fitting_deviceInfo {wpsMethod : WpsMethod} : Fitting (p2pBufAddDeviceInfo b wpsMethod) := by
  have hcount : (UInt8.ofNat b.secDevType.length).toNat = b.secDevType.length := by
    have hle := b.secDevType_le
    rw [UInt8.toNat_ofNat']
    exact Nat.mod_eq_of_lt (by omega)
  refine ⟨{ id := attrDeviceInfo, field := .p2pDeviceInfo, least := 6 + 2 + 8 + 1, logged := 6 + 2 + 8 }, rfl, ?_, ?_, ?_, ?_⟩
  · simp only [p2pBufAddDeviceInfo, putBE, List.length_append, length_toBE, b.priDevType.property, List.length_singleton]
    omega
  · intro h
    exact h.le.trans (by decide)
  · exact fun h => by cases h
  · intro _
    refine ⟨_, _, _, _, _, _, rfl, length_toBE 6 _, length_toBE 2 _, b.priDevType.property, ?_, b.devName_le⟩
    rw [hcount]
    exact length_secDevType

theorem goNegReq_fitting : ∀ a ∈ goNegReqAttrs b peer flags, Fitting a := by
  rw [goNegReqAttrs]
  split <;>
    simp only [List.forall_mem_append, List.forall_mem_cons, List.not_mem_nil, false_imp_iff, implies_true, and_true,
      fitting_capability, fitting_goIntent, fitting_configTimeout, fitting_listenChannel, fitting_extListenTiming,
      fitting_intendedAddr, fitting_channelList, fitting_deviceInfo, fitting_operatingChannel]

theorem goNegResp_fitting {peer : Option Device} {tieBreaker : Bool} :
    ∀ a ∈ goNegRespAttrs b peer flags status tieBreaker, Fitting a := by
  rw [goNegRespAttrs]
  split_ifs <;>
    simp only [List.forall_mem_append, List.forall_mem_cons, List.not_mem_nil, false_imp_iff, implies_true, and_true,
      fitting_status, fitting_capability, fitting_goIntent, fitting_configTimeout, fitting_intendedAddr,
      fitting_channelList, fitting_deviceInfo, fitting_operatingChannel, fitting_groupId]

theorem goNegConf_fitting {respChan : Option ChannelAttr} {go : Option Bool} :
    ∀ a ∈ goNegConfAttrs b peer flags status respChan go, Fitting a := by
  rw [goNegConfAttrs]
  split_ifs <;>
    simp only [List.forall_mem_append, List.forall_mem_cons, List.not_mem_nil, false_imp_iff, implies_true, and_true,
      fitting_status, fitting_capability, fitting_channelList, fitting_operatingChannel, fitting_groupId]

theorem toDevCapab_devCapab (b : Build) : toDevCapab b.devCapab.toNat = b.p2p.devCapab := by
  have hother : (252 : UInt8).toNat = 252 := rfl
  have hmask : Nat.testBit 252 1 = false := by decide
  have hone : Nat.testBit 1 1 = false := by decide
  have htwo : Nat.testBit 2 1 = true := by decide
  have hthree : Nat.testBit 3 1 = true := by decide
  rw [toDevCapab, Build.devCapab]
  cases b.p2p.devCapab with
  | mk sd disc =>
    cases sd <;> cases disc <;>
      simp [Nat.testBit_or, Nat.testBit_and, hother, hmask, hone, htwo, hthree]

theorem toChannel_channelOctets (c : ChannelAttr) : toChannel (channelOctets c) = c := rfl

theorem getBE_addr (a : Addr) : getBE 48 (putBE 6 a) = a := getBE_putBE 6 a rfl

theorem view_goNegReq {token : UInt8} :
    view token (wpsMethodPwId peer.wpsMethod) (goNegReqAttrs b peer flags) = buildGoNegReq b.p2p peer token := by
  rw [goNegReqAttrs]
  split <;>
    simp [view, buildGoNegReq, List.lookup_cons, p2pBufAddCapability, p2pBufAddGoIntent, p2pBufAddConfigTimeout,
      p2pBufAddListenChannel, p2pBufAddExtListenTiming, p2pBufAddIntendedAddr, p2pBufAddChannelList,
      p2pBufAddDeviceInfo, p2pBufAddOperatingChannel, toDevCapab_devCapab, attrDeviceInfo, toChannel_channelOctets,
      getBE_addr]

theorem view_goNegResp {peer : Option Device} {token : UInt8} {tieBreaker : Bool} :
    view token (wpsMethodPwId ((peer.map (·.wpsMethod)).getD .notReady))
        (goNegRespAttrs b peer flags status tieBreaker) =
      buildGoNegResp b.p2p peer token status tieBreaker := by
  rw [goNegRespAttrs, buildGoNegResp]
  generalize (if status ≠ scSuccess ∨ peer.map (·.goState) = none ∨ peer.map (·.goState) = some .remoteGo then
    b.p2p.channels else channelsIntersect b.p2p.channels ((peer.map (·.channels)).getD [])) = channels
  generalize hstate : peer.map (·.goState) = goState
  by_cases hremote : goState = some .remoteGo
  · rw [if_pos hremote, if_pos hremote, hremote]
    simp [view, List.lookup_cons, p2pBufAddCapability, p2pBufAddGoIntent, p2pBufAddConfigTimeout, p2pBufAddStatus,
      p2pBufAddIntendedAddr, p2pBufAddChannelList, p2pBufAddDeviceInfo, toDevCapab_devCapab, attrDeviceInfo, getBE_addr]
  rw [if_neg hremote, if_neg hremote]
  split <;>
    simp [view, List.lookup_cons, p2pBufAddCapability, p2pBufAddGoIntent, p2pBufAddConfigTimeout, p2pBufAddStatus,
      p2pBufAddIntendedAddr, p2pBufAddChannelList, p2pBufAddDeviceInfo, p2pBufAddOperatingChannel, p2pBufAddGroupId,
      toDevCapab_devCapab, attrDeviceInfo, toChannel_channelOctets, getBE_addr]

theorem view_goNegConf {token : UInt8} {respChan : Option ChannelAttr} {go : Option Bool} :
    view token 0 (goNegConfAttrs b peer flags status respChan go) =
      buildGoNegConf b.p2p peer token status respChan go := by
  rw [goNegConfAttrs, buildGoNegConf]
  by_cases hgo : go ≠ some false
  · rw [if_pos hgo, if_pos hgo, if_pos hgo, if_pos hgo]
    simp [view, List.lookup_cons, p2pBufAddCapability, p2pBufAddStatus, p2pBufAddChannelList, p2pBufAddOperatingChannel,
      p2pBufAddGroupId, toDevCapab_devCapab, attrDeviceInfo, toChannel_channelOctets, getBE_addr]
    rfl
  · rw [if_neg hgo, if_neg hgo, if_neg hgo, if_neg hgo]
    simp [view, List.lookup_cons, p2pBufAddCapability, p2pBufAddStatus, p2pBufAddChannelList, p2pBufAddOperatingChannel,
      toDevCapab_devCapab, attrDeviceInfo, toChannel_channelOctets]
    rfl

end Builders

section Sizes

variable (b : Build)

def channelListSize (channels : Channels) : ℕ := 3 + 3 + (channels.map fun c => 2 + c.channel.length).sum

def deviceInfoSize : ℕ := 3 + 6 + 2 + 8 + 1 + 8 * b.secDevType.length + 4 + b.devName.length

def respChannels (peer : Option Device) (status : UInt8) : Channels :=
  if status ≠ scSuccess ∨ peer.map (·.goState) = none ∨ peer.map (·.goState) = some .remoteGo then b.p2p.channels
  else channelsIntersect b.p2p.channels ((peer.map (·.channels)).getD [])

def goNegReqSize : ℕ :=
  4 + 5 + 4 + 5 + 8 + (if b.p2p.extListenInterval ≠ 0 then 7 else 0) + 9 + channelListSize b.p2p.channels +
    deviceInfoSize b + 8

def goNegRespSize (peer : Option Device) (status : UInt8) : ℕ :=
  4 + 4 + 5 + 4 + 5 + (if peer.map (·.goState) = some .remoteGo then 0 else 8) + 9 +
    channelListSize (respChannels b peer status) + deviceInfoSize b +
    (if peer.map (·.goState) = some .localGo then 9 + b.p2p.ssid.length else 0)

def goNegConfSize (peer : Device) (go : Option Bool) : ℕ :=
  4 + 4 + 5 + 8 + channelListSize (channelsIntersect b.p2p.channels peer.channels) +
    (if go ≠ some false then 9 + b.p2p.ssid.length else 0)

def wpsSize (exts : List Octets) : ℕ :=
  4 + 5 + 6 + (if b.wps2 then 10 else 0) + (exts.map fun e => 4 + e.length).sum

def addedExts (size : ℕ) : List Octets := vendorExts (1000 - (8 + (2 + size) + 2 + wpsSize b [])) b.wpsVendorExt

variable {b}

theorem length_channelList (channels : Channels) :
    3 + (p2pBufAddChannelList b channels).2.length = channelListSize channels := by
  have hclass : ∀ c : RegClass, (c.regClass :: UInt8.ofNat c.channel.length :: c.channel).length =
      2 + c.channel.length := by
    intro c
    rw [List.length_cons, List.length_cons]
    omega
  rw [p2pBufAddChannelList, P2pData.channelListAttr, List.length_append, channelListOctets, List.length_flatMap,
    channelListSize, Nat.add_assoc]
  simp only [hclass]
  rfl

theorem length_deviceInfo {wpsMethod : WpsMethod} :
    3 + (p2pBufAddDeviceInfo b wpsMethod).2.length = deviceInfoSize b := by
  simp only [p2pBufAddDeviceInfo, putBE, List.length_append, length_toBE, b.priDevType.property, List.length_singleton,
    length_secDevType, deviceInfoSize]
  omega

theorem length_addr {a : Addr} : 3 + (p2pBufAddIntendedAddr a).2.length = 9 := by
  rw [p2pBufAddIntendedAddr, putBE, length_toBE]

theorem length_groupId : 3 + (p2pBufAddGroupId b.p2p.cfg.devAddr b.p2p.ssid).2.length = 9 + b.p2p.ssid.length := by
  rw [p2pBufAddGroupId, List.length_append, putBE, length_toBE]
  omega

theorem length_channel {c : ChannelAttr} : 3 + (p2pBufAddOperatingChannel c).2.length = 8 := rfl

variable {flags : PeerFlags}

theorem length_goNegReq {peer : Device} :
    (p2pContent (goNegReqAttrs b peer flags)).length = goNegReqSize b := by
  have hlisten : ∀ c, 3 + (p2pBufAddListenChannel c).2.length = 8 := fun c => rfl
  have hcapab : ∀ d g, 3 + (p2pBufAddCapability d g).2.length = 5 := fun d g => rfl
  have hintent : ∀ v, 3 + (p2pBufAddGoIntent v).2.length = 4 := fun v => rfl
  have htimeout : ∀ g c, 3 + (p2pBufAddConfigTimeout g c).2.length = 5 := fun g c => rfl
  have htiming : ∀ p i, 3 + (p2pBufAddExtListenTiming p i).2.length = 7 := fun p i => rfl
  rw [length_p2pContent, goNegReqAttrs, goNegReqSize]
  split <;>
    simp only [List.map_append, List.map_cons, List.map_nil, List.sum_append, List.sum_cons, List.sum_nil, hlisten,
      hcapab, hintent, htimeout, htiming, length_addr, length_channelList, length_deviceInfo, length_channel] <;>
    omega

theorem length_goNegResp {peer : Option Device} {status : UInt8} {tieBreaker : Bool} :
    (p2pContent (goNegRespAttrs b peer flags status tieBreaker)).length = goNegRespSize b peer status := by
  have hstatus : ∀ v, 3 + (p2pBufAddStatus v).2.length = 4 := fun v => rfl
  have hcapab : ∀ d g, 3 + (p2pBufAddCapability d g).2.length = 5 := fun d g => rfl
  have hintent : ∀ v, 3 + (p2pBufAddGoIntent v).2.length = 4 := fun v => rfl
  have htimeout : ∀ g c, 3 + (p2pBufAddConfigTimeout g c).2.length = 5 := fun g c => rfl
  rw [length_p2pContent, goNegRespAttrs, goNegRespSize, respChannels]
  generalize (if status ≠ scSuccess ∨ peer.map (·.goState) = none ∨ peer.map (·.goState) = some .remoteGo then
    b.p2p.channels else channelsIntersect b.p2p.channels ((peer.map (·.channels)).getD [])) = channels
  split_ifs <;>
    simp only [List.map_append, List.map_cons, List.map_nil, List.sum_append, List.sum_cons, List.sum_nil, hstatus,
      hcapab, hintent, htimeout, length_addr, length_channelList, length_deviceInfo, length_channel, length_groupId] <;>
    omega

theorem length_goNegConf {peer : Device} {status : UInt8} {respChan : Option ChannelAttr}
    {go : Option Bool} :
    (p2pContent (goNegConfAttrs b peer flags status respChan go)).length = goNegConfSize b peer go := by
  have hstatus : ∀ v, 3 + (p2pBufAddStatus v).2.length = 4 := fun v => rfl
  have hcapab : ∀ d g, 3 + (p2pBufAddCapability d g).2.length = 5 := fun d g => rfl
  rw [length_p2pContent, goNegConfAttrs, goNegConfSize]
  split_ifs <;>
    simp only [List.map_append, List.map_cons, List.map_nil, List.sum_append, List.sum_cons, List.sum_nil, hstatus,
      hcapab, length_channelList, length_channel, length_groupId] <;>
    omega

theorem length_wpsContent (b : Build) (pwId : ℕ) (exts : List Octets) : (wpsContent b pwId exts).length = wpsSize b exts := by
  have hplain : ∀ l : List (ℕ × Octets), (plain l).length = (l.map fun a => 4 + a.2.length).sum := by
    intro l
    rw [plain, List.length_flatMap]
    simp only [length_tlv]
  rw [wpsContent, List.length_append, length_toBE, hplain, wpsAttrs, wpsFixed, wpsSize]
  cases b.wps2 with
  | true =>
    simp [length_toBE, Function.comp_def]
    omega
  | false =>
    simp [length_toBE, Function.comp_def]
    omega

end Sizes

section Claim

variable {b : Build} {attrs : List (ℕ × Octets)} {token subtype : UInt8} {m : Message} {pwId : ℕ}

def RoundTrips (subtype dialogToken : UInt8) (elems : List Octets) (m : Message) : Prop :=
  (∀ c ∈ elems, (UInt8.ofNat c.length).toNat = c.length) ∧
    ∃ msg, p2pParse ((frame subtype dialogToken elems).drop 7) = some (.ok msg) ∧ toMessage msg = m

-- The WPS element is short enough, and its vendor extensions are ones that `wps_parse_vendor_ext` takes.
def WpsFits (b : Build) (size : ℕ) : Prop :=
  wpsSize b (addedExts b size) ≤ 255 ∧ ∀ e ∈ addedExts b size, Wps.parseVendorExt [] e = true

theorem toNat_length_iff {n : ℕ} : (UInt8.ofNat n).toNat = n ↔ n < 256 := by
  rw [UInt8.toNat_ofNat']
  omega

theorem whole_content {t : ℕ} {x : Octets} (h : (toBE 4 t ++ x).length < 256) : Whole (toBE 4 t ++ x) :=
  ⟨by rw [List.length_append, length_toBE]; omega, h⟩

theorem roundTrips_p2pOnly (hfit : ∀ a ∈ attrs, Fitting a) (hview : view token 0 attrs = m) :
    RoundTrips subtype token [p2pContent attrs] m ↔ (p2pContent attrs).length < 256 := by
  rw [RoundTrips, List.forall_mem_singleton, toNat_length_iff]
  refine and_iff_left_of_imp fun hshort => ?_
  obtain ⟨res, hres, msg, rfl, hmsg⟩ :=
    returns_p2pOnly token (allTaken_of_fitting hfit hshort) (whole_content hshort)
  exact ⟨msg, hres, hmsg.trans hview⟩

theorem withWps_eq {wpsMethod : WpsMethod} :
    withWps b attrs wpsMethod =
      [p2pContent attrs, wpsContent b (wpsMethodPwId wpsMethod) (addedExts b (p2pContent attrs).length)] := by
  have hroom : tailroom b (wpsMethodPwId wpsMethod) (usedBy (p2pContent attrs)) =
      1000 - (8 + (2 + (p2pContent attrs).length) + 2 + wpsSize b []) := by
    rw [← length_wpsContent b (wpsMethodPwId wpsMethod), tailroom, usedBy, wpsContent, List.length_append,
      length_toBE, wpsAttrs, List.map_nil, List.append_nil, Nat.add_assoc _ 4]
  rw [withWps, p2pBuildWpsIe, hroom]
  rfl

theorem wpsMethodPwId_lt (wpsMethod : WpsMethod) : wpsMethodPwId wpsMethod < 65536 := by
  cases wpsMethod <;> decide

theorem roundTrips_withWps {wpsMethod : WpsMethod} {size : ℕ} (hsize : (p2pContent attrs).length = size)
    (hfit : ∀ a ∈ attrs, Fitting a) (hview : view token (wpsMethodPwId wpsMethod) attrs = m) :
    RoundTrips subtype token (withWps b attrs wpsMethod) m ↔ size ≤ 255 ∧ WpsFits b size := by
  have hwps := length_wpsContent b (wpsMethodPwId wpsMethod) (addedExts b size)
  have hexts : (addedExts b size).length ≤ 10 := (length_vendorExts _ _).trans b.wpsVendorExt_le
  rw [withWps_eq, hsize, RoundTrips, List.forall_mem_cons, List.forall_mem_singleton, toNat_length_iff,
    toNat_length_iff, hsize, WpsFits, ← hwps]
  have hparse : size < 256 → (wpsContent b (wpsMethodPwId wpsMethod) (addedExts b size)).length < 256 → _ :=
    fun hp2p hshort => returns_withWps (b := b) token (allTaken_of_fitting hfit (by omega))
      (whole_content (by rw [← p2pContent]; omega)) (whole_content hshort) (wpsMethodPwId_lt wpsMethod) hexts
  constructor
  · rintro ⟨⟨hp2p, hshort⟩, msg, hmsg, -⟩
    obtain ⟨res, hres, hgood⟩ := hparse hp2p hshort
    refine ⟨by omega, by omega, ?_⟩
    by_contra hbad
    rw [if_neg fun hall => hbad (List.all_eq_true.1 hall)] at hgood
    rw [hgood] at hres
    exact absurd (hmsg.symm.trans hres) (by simp)
  · rintro ⟨hp2p, hshort, hall⟩
    obtain ⟨res, hres, hgood⟩ := hparse (by omega) (by omega)
    rw [if_pos (List.all_eq_true.2 hall)] at hgood
    obtain ⟨msg, rfl, hmsg⟩ := hgood
    exact ⟨⟨by omega, by omega⟩, msg, hres, hmsg.trans hview⟩

-- A GO Negotiation frame is read back with what was put in if and only if its elements have no more than 255
-- octets, and the vendor extensions of this vendor are well formed.
theorem goNeg_round_trips (b : Build) :
    (∀ peer flags token,
      RoundTrips 0 token (p2pBuildGoNegReq b peer flags) (buildGoNegReq b.p2p peer token) ↔
        goNegReqSize b ≤ 255 ∧ WpsFits b (goNegReqSize b)) ∧
      (∀ peer flags token status tieBreaker,
        RoundTrips 1 token (p2pBuildGoNegResp b peer flags status tieBreaker)
            (buildGoNegResp b.p2p peer token status tieBreaker) ↔
          goNegRespSize b peer status ≤ 255 ∧ WpsFits b (goNegRespSize b peer status)) ∧
      ∀ peer flags token status respChan go,
        RoundTrips 2 token (p2pBuildGoNegConf b peer flags status respChan go)
            (buildGoNegConf b.p2p peer token status respChan go) ↔
          goNegConfSize b peer go ≤ 255 := by
  refine ⟨fun peer flags token => ?_, fun peer flags token status tieBreaker => ?_,
    fun peer flags token status respChan go => ?_⟩
  · exact roundTrips_withWps length_goNegReq goNegReq_fitting view_goNegReq
  · exact roundTrips_withWps length_goNegResp goNegResp_fitting view_goNegResp
  · rw [p2pBuildGoNegConf, roundTrips_p2pOnly goNegConf_fitting view_goNegConf, length_goNegConf, Nat.lt_succ_iff]

def wideChannels : Channels :=
  (List.range 10).map fun i => ⟨UInt8.ofNat (115 + i), (List.range 20).map fun j => UInt8.ofNat (36 + j)⟩

def wideBuild : Build where
  p2p := { cfg := ⟨0x020000000001, ⟨0x58, 0x58, 4⟩, 81, 1, 81, 6, false, wideChannels, 100⟩, channels := wideChannels }
  ssid_le := by decide
  secDevType_le := by decide
  devName_le := by decide
  wpsVendorExt_le := by decide

-- The length of the P2P element of its request is cut off, and the frame is not read back.
set_option maxRecDepth 100000 in
theorem goNegReq_cut_off :
    wideChannels.length ≤ maxRegClasses ∧ (∀ c ∈ wideChannels, c.channel.length ≤ maxRegClassChannels) ∧
      (p2pBuildGoNegReq wideBuild { addr := 5 } {}).map (fun c => (c.length, (UInt8.ofNat c.length).toNat)) =
        [(293, 37), (25, 25)] ∧
      (p2pParse ((frame 0 9 (p2pBuildGoNegReq wideBuild { addr := 5 } {})).drop 7)).map (·.isOk) = some false ∧
      ¬RoundTrips 0 9 (p2pBuildGoNegReq wideBuild { addr := 5 } {}) (buildGoNegReq wideBuild.p2p { addr := 5 } 9) := by
  refine ⟨by decide, by decide, rfl, by decide +kernel, ?_⟩
  rintro ⟨hshort, -⟩
  exact absurd (hshort _ (List.mem_cons_self ..)) (by decide)

end Claim

end WpaSupplicant.P2p.Frames
