import WpaSupplicant.Arbiter

namespace WpaSupplicant.Arbiter

open Bss Interworking Lib.Ring

def Candidates.Lists (c : Candidates) (l : List Ptr) : Prop :=
  ∃ nodes, IsRing c.links listHead nodes ∧ nodes.map c.bss = l

namespace Candidates.Lists

variable {c : Candidates} {l : List Ptr} {fuel : ℕ}

theorem shown (h : c.Lists l) (hfuel : l.length < fuel) : c.shown fuel = l := by
  obtain ⟨nodes, hring, rfl⟩ := h
  rw [List.length_map] at hfuel
  rw [Candidates.shown, hring.walk hfuel]

theorem empty (h : c.Lists l) : c.links.empty listHead = l.isEmpty := by
  obtain ⟨nodes, hring, rfl⟩ := h
  rw [hring.empty]
  cases nodes <;> rfl

theorem first (h : c.Lists l) : (c.links.first listHead).map c.bss = l.head? := by
  obtain ⟨nodes, hring, rfl⟩ := h
  rw [hring.first]
  cases nodes <;> rfl

theorem sweep (h : c.Lists l) (hfuel : l.length < fuel) (keep : Ptr → Bool) :
    (c.sweep fuel keep).Lists (l.filter keep) := by
  obtain ⟨nodes, hring, rfl⟩ := h
  rw [List.length_map] at hfuel
  exact ⟨_, hring.sweep hfuel, (List.filter_map).symm⟩

-- The modulus is the number of candidates, so the position that is drawn is one in the list.
theorem randomFilter (h : c.Lists l) (hfuel : l.length < fuel) (osRandom : ℕ) (hne : l ≠ []) :
    ∃ c', c.randomFilter fuel osRandom = some c' ∧ c'.Lists l[osRandom % l.length]?.toList := by
  obtain ⟨nodes, hring, rfl⟩ := h
  rw [List.length_map] at hfuel ⊢
  have hpos : nodes.length ≠ 0 := by
    intro hzero
    exact hne (by rw [List.eq_nil_of_length_eq_zero hzero]; rfl)
  have hlt : osRandom % nodes.length < nodes.length := Nat.mod_lt _ (by omega)
  obtain ⟨hempty, hfound⟩ := hring.drain (osRandom % nodes.length) hfuel
  rw [List.getElem?_eq_getElem hlt] at hfound
  have hmem : nodes[osRandom % nodes.length] ∈ nodes := List.getElem_mem hlt
  have hnew : nodes[osRandom % nodes.length] ∉ [listHead] := by
    intro hhead
    rw [List.mem_singleton.mp hhead] at hmem
    exact (List.nodup_cons.mp hring.nodup).1 hmem
  refine ⟨({ c with links := _ } : Candidates).add _, ?_, [nodes[osRandom % nodes.length]], hempty.addTail hnew, ?_⟩
  · rw [Candidates.randomFilter, hring.len hfuel]
    dsimp only
    rw [if_neg hpos, hfound]
    rfl
  · simp [Candidates.add, List.getElem?_eq_getElem hlt]

end Candidates.Lists

section Filters

variable (t : Table) (osRandom : ℕ)

def Filter.leaves (l : List Ptr) : Filter → List Ptr
  | .freePublic => l.filter fun p => isFreePublic (t.heap p)
  | .accessInternet => l.filter fun p => ieInterworkingInternet (t.heap p)
  | .random => l[osRandom % l.length]?.toList

def leavesAll : List Filter → List Ptr → List Ptr
  | [], l => l
  | f :: fs, l => leavesAll fs (f.leaves t osRandom l)

def reports : List Filter → List Ptr → List Message
  | [], _ => []
  | f :: fs, l =>
    .left f (f.leaves t osRandom l) ::
      if f.leaves t osRandom l = [] then [] else reports fs (f.leaves t osRandom l)

variable {c : Candidates} {l : List Ptr} {fuel : ℕ}

theorem run_leaves (f : Filter) (h : c.Lists l) (hfuel : l.length < fuel) (hrandom : f = .random → l ≠ []) :
    ∃ c', f.run t fuel osRandom c = some c' ∧ c'.Lists (f.leaves t osRandom l) := by
  cases f with
  | freePublic => exact ⟨_, rfl, h.sweep hfuel _⟩
  | accessInternet => exact ⟨_, rfl, h.sweep hfuel _⟩
  | random => exact h.randomFilter hfuel osRandom (hrandom rfl)

theorem leavesAll_nil (fs : List Filter) : leavesAll t osRandom fs [] = [] := by
  induction fs with
  | nil => rfl
  | cons f fs ih => cases f <;> simpa [leavesAll, Filter.leaves] using ih

theorem length_leaves_le (f : Filter) : (f.leaves t osRandom l).length ≤ l.length := by
  cases f with
  | freePublic => exact List.length_filter_le _ l
  | accessInternet => exact List.length_filter_le _ l
  | random =>
    cases l with
    | nil => simp [Filter.leaves]
    | cons p l =>
      have hle := Option.length_toList_le (o := (p :: l)[osRandom % (p :: l).length]?)
      simp only [Filter.leaves, List.length_cons] at hle ⊢
      omega

-- The filters run one after the other while candidates are left, so the random one never finds none.
theorem runFilters_leaves (h : c.Lists l) (hfuel : l.length < fuel) (fs : List Filter)
    (hrandom : fs.head? = some .random → l ≠ []) (arb : ArbiterType) :
    ∃ c', runFilters t fuel osRandom fs c arb =
        some (c', { arb with out := arb.out ++ reports t osRandom fs l }) ∧ c'.Lists (leavesAll t osRandom fs l) := by
  induction fs generalizing c l arb with
  | nil => exact ⟨c, by simp [runFilters, reports], h⟩
  | cons f fs ih =>
    obtain ⟨c', hrun, hc'⟩ := run_leaves t osRandom f h hfuel fun hf => hrandom (by rw [hf]; rfl)
    have hfuel' : (f.leaves t osRandom l).length < fuel := (length_leaves_le t osRandom f).trans_lt hfuel
    simp only [runFilters, hrun, hc'.shown hfuel', hc'.empty, List.isEmpty_iff]
    by_cases hempty : f.leaves t osRandom l = []
    · rw [if_pos hempty]
      refine ⟨c', ?_, ?_⟩
      · simp [reports, hempty, ArbiterType.emit]
      · rw [leavesAll, hempty, leavesAll_nil]
        exact hempty ▸ hc'
    · rw [if_neg hempty]
      obtain ⟨c'', hrest, hc''⟩ := ih hc' hfuel' (fun _ => hempty) (arb.emit (.left f (f.leaves t osRandom l)))
      refine ⟨c'', ?_, ?_⟩
      · rw [hrest]
        simp [reports, hempty, ArbiterType.emit]
      · exact hc''

end Filters

section Collection

variable (t : Table) (conf : HomeConf)

theorem collect_spec (bsss : List Ptr) (c : Candidates) (count : ℕ) {found : List Ptr}
    (hring : IsRing c.links listHead (List.range' 1 count)) (hbss : (List.range' 1 count).map c.bss = found) :
    ∃ c', collect t conf true bsss c count found =
        (c', found ++ bsss.filter fun p => interworkingCredentialsAvailable conf (t.heap p)) ∧
      c'.Lists (found ++ bsss.filter fun p => interworkingCredentialsAvailable conf (t.heap p)) := by
  induction bsss generalizing c count found with
  | nil => exact ⟨c, by simp [collect], _, hring, by simpa using hbss⟩
  | cons bss rest ih =>
    by_cases havail : interworkingCredentialsAvailable conf (t.heap bss) = true
    · have hnew : count + 1 ∉ listHead :: List.range' 1 count := by
        simp only [List.mem_cons, List.mem_range'_1, listHead]
        omega
      have hsame : ∀ p ∈ List.range' 1 count, Function.update c.bss (count + 1) bss p = c.bss p := by
        intro p hp
        refine Function.update_of_ne ?_ _ _
        rw [List.mem_range'_1] at hp
        omega
      have hadded : List.range' 1 (count + 1) = List.range' 1 count ++ [count + 1] := by
        rw [List.range'_concat, Nat.one_mul, Nat.add_comm 1 count]
      have hring' : IsRing (c.links.addTail listHead (count + 1)) listHead (List.range' 1 (count + 1)) := by
        rw [hadded]
        exact hring.addTail hnew
      have hbss' : (List.range' 1 (count + 1)).map (Function.update c.bss (count + 1) bss) = found ++ [bss] := by
        rw [hadded, List.map_append, List.map_congr_left hsame, hbss]
        simp
      obtain ⟨c', hcollect, hc'⟩ := ih
        (({ c with bss := Function.update c.bss (count + 1) bss } : Candidates).add (count + 1)) (count + 1) hring' hbss'
      refine ⟨c', ?_, ?_⟩
      · rw [collect, if_pos havail]
        simpa [havail] using hcollect
      · simpa [havail] using hc'
    · obtain ⟨c', hcollect, hc'⟩ := ih c count hring hbss
      refine ⟨c', ?_, ?_⟩
      · rw [collect, if_neg havail]
        simpa [havail] using hcollect
      · simpa [havail] using hc'

end Collection

def Suitable (conf : HomeConf) (bss : Entry) : Bool :=
  interworkingCredentialsAvailable conf bss && isFreePublic bss && ieInterworkingInternet bss

def suitables (conf : HomeConf) (t : Table) : List Ptr := t.bss.filter fun p => Suitable conf (t.heap p)

variable {t : Table} {osRandom : ℕ}

-- The filters together leave the BSS at a position among those that pass both tests.
theorem leavesAll_filters (l : List Ptr) :
    let passing := l.filter fun p => isFreePublic (t.heap p) && ieInterworkingInternet (t.heap p)
    leavesAll t osRandom filters l = passing[osRandom % passing.length]?.toList := by
  simp only [filters, leavesAll, Filter.leaves, List.filter_filter, Bool.and_comm]

theorem leaves_sublist (f : Filter) (l : List Ptr) : (f.leaves t osRandom l).Sublist l := by
  cases f with
  | freePublic => exact List.filter_sublist
  | accessInternet => exact List.filter_sublist
  | random =>
    rw [Filter.leaves]
    cases hfound : l[osRandom % l.length]? with
    | none => exact List.nil_sublist l
    | some p => exact List.singleton_sublist.mpr (List.mem_of_getElem? hfound)

-- No filter but the random one loses a BSS that passes both tests.
theorem filter_leaves {f : Filter} (hf : f ≠ .random) (l : List Ptr) :
    ((f.leaves t osRandom l).filter fun p => isFreePublic (t.heap p) && ieInterworkingInternet (t.heap p)) =
      l.filter fun p => isFreePublic (t.heap p) && ieInterworkingInternet (t.heap p) := by
  cases f with
  | freePublic =>
    rw [Filter.leaves, List.filter_filter]
    refine List.filter_congr fun p _ => ?_
    cases isFreePublic (t.heap p) <;> simp
  | accessInternet =>
    rw [Filter.leaves, List.filter_filter]
    refine List.filter_congr fun p _ => ?_
    cases ieInterworkingInternet (t.heap p) <;> simp
  | random => exact absurd rfl hf

theorem mem_reports {fs : List Filter} {l : List Ptr} {f : Filter} {left : List Ptr}
    (hlast : .random ∉ fs.dropLast) (h : .left f left ∈ reports t osRandom fs l) :
    left.Sublist l ∧ (f ≠ .random →
      (left.filter fun p => isFreePublic (t.heap p) && ieInterworkingInternet (t.heap p)) =
        l.filter fun p => isFreePublic (t.heap p) && ieInterworkingInternet (t.heap p)) := by
  induction fs generalizing l with
  | nil => simp [reports] at h
  | cons g fs ih =>
    rw [reports, List.mem_cons] at h
    rcases h with h | h
    · cases h
      exact ⟨leaves_sublist _ l, fun hf => filter_leaves hf l⟩
    by_cases hempty : g.leaves t osRandom l = []
    · simp [hempty] at h
    rw [if_neg hempty] at h
    have hfs : fs ≠ [] := by
      rintro rfl
      simp [reports] at h
    rw [List.dropLast_cons_of_ne_nil hfs, List.mem_cons, not_or] at hlast
    obtain ⟨hsub, hpassing⟩ := ih hlast.2 h
    refine ⟨hsub.trans (leaves_sublist g l), fun hf => ?_⟩
    rw [hpassing hf, filter_leaves (Ne.symm hlast.1)]

def availables (conf : HomeConf) (t : Table) : List Ptr :=
  t.bss.filter fun p => interworkingCredentialsAvailable conf (t.heap p)

theorem filter_suitable {conf : HomeConf} {l : List Ptr} (h : l.Sublist (availables conf t)) :
    (l.filter fun p => Suitable conf (t.heap p)) =
      l.filter fun p => isFreePublic (t.heap p) && ieInterworkingInternet (t.heap p) := by
  refine List.filter_congr fun p hp => ?_
  have havail := (List.mem_filter.mp (h.subset hp)).2
  rw [Suitable, havail, Bool.true_and]

theorem suitables_eq (conf : HomeConf) (t : Table) : suitables conf t =
    (availables conf t).filter fun p => isFreePublic (t.heap p) && ieInterworkingInternet (t.heap p) := by
  rw [suitables, availables, List.filter_filter]
  refine List.filter_congr fun p _ => ?_
  rw [Suitable, Bool.and_assoc, Bool.and_comm]

theorem arbiterSelect_spec (t : Table) (osRandom : ℕ) {fuel : ℕ} {c : Candidates} {l : List Ptr} (h : c.Lists l)
    (hfuel : l.length < fuel) (arb : ArbiterType) :
    ∃ arb', arbiterSelect t fuel osRandom c arb = some ((leavesAll t osRandom filters l).head?, arb') ∧
      arb'.state = .idle ∧ ∃ more, arb'.out = arb.out ++ (.startSelecting :: .available l ::
        (reports t osRandom filters l ++ more)) ∧ more ⊆ [.noneLeft] := by
  obtain ⟨c', hrun, hc'⟩ := runFilters_leaves t osRandom h hfuel filters (by simp [filters])
    ((({ arb with state := .deciding } : ArbiterType).emit .startSelecting).emit (.available l))
  have hfirst := hc'.first
  rw [arbiterSelect]
  simp only [h.shown hfuel, hrun]
  cases hnode : c'.links.first listHead with
  | none =>
    rw [hnode] at hfirst
    simp only [← hfirst, Option.map_none]
    exact ⟨_, rfl, rfl, [.noneLeft], by simp [ArbiterType.emit], List.Subset.refl _⟩
  | some node =>
    rw [hnode] at hfirst
    simp only [← hfirst, Option.map_some]
    exact ⟨_, rfl, rfl, [], by simp [ArbiterType.emit], List.nil_subset _⟩

-- The one BSS that is connected with is the one drawn of all suitable ones, in the order of the table. No suitable
-- one is lost, doubled or moved before the draw, and the draw never fails.
theorem select_connects_with_one (conf : HomeConf) (t : Table) (arb : ArbiterType) (osRandom : ℕ) :
    ∃ sel out, interworkingSelectNetwork t osRandom conf arb true = some sel ∧
      sel.connected = ((suitables conf t)[osRandom % (suitables conf t).length]?).toList.map
        (fun p => (p, interworkingConnect conf (t.heap p))) ∧
      sel.arbiter.state = .idle ∧ sel.arbiter.out = arb.out ++ out ∧
      ∀ f left, .left f left ∈ out → left.Sublist t.bss ∧
        (f ≠ .random → (left.filter fun p => Suitable conf (t.heap p)) = suitables conf t) := by
  have hinit : IsRing Candidates.empty.links listHead [] := IsRing.init _ listHead
  obtain ⟨c, hcollect, hc⟩ := collect_spec t conf t.bss Candidates.empty 0 hinit (List.map_nil)
  rw [List.nil_append, ← availables] at hcollect hc
  have hlength : (availables conf t).length < t.bss.length + 1 :=
    Nat.lt_succ_of_le (List.length_filter_le _ t.bss)
  obtain ⟨arb', hselect, hidle, more, hout, hmore⟩ := arbiterSelect_spec t osRandom hc hlength arb
  have hchosen : (leavesAll t osRandom filters (availables conf t)).head? =
      (suitables conf t)[osRandom % (suitables conf t).length]? := by
    rw [leavesAll_filters, ← suitables_eq]
    cases (suitables conf t)[osRandom % (suitables conf t).length]? <;> rfl
  have hsel : interworkingSelectNetwork t osRandom conf arb true = some
      { aps := (availables conf t).map fun p => (t.heap p).bssid
        noMatch := (availables conf t).isEmpty
        connected := ((leavesAll t osRandom filters (availables conf t)).head?).toList.map
          fun p => (p, interworkingConnect conf (t.heap p))
        arbiter := arb' } := by
    simp only [interworkingSelectNetwork, hcollect, hselect]
  refine ⟨_, _, hsel, ?_, hidle, hout, ?_⟩
  · rw [← hchosen]
  · intro f left hleft
    have hreport : .left f left ∈ reports t osRandom filters (availables conf t) := by
      simp only [List.mem_cons, reduceCtorEq, false_or, List.mem_append] at hleft
      refine hleft.resolve_right fun hin => ?_
      simpa using hmore hin
    obtain ⟨hsub, hpassing⟩ := mem_reports (by decide) hreport
    refine ⟨hsub.trans List.filter_sublist, fun hf => ?_⟩
    rw [filter_suitable hsub, hpassing hf, ← suitables_eq]

end WpaSupplicant.Arbiter
