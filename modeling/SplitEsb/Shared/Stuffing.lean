import SplitEsb.Shared.Bytes

/-! # Consistent overhead byte stuffing
Groups of at most 254 nonzero bytes behind a length code. The recursion carries
the group that is still open. -/

namespace Stuffing

open ByteString

/-! ## Stuffing -/

def stuffFrom (group : Bytes) : Bytes → Bytes
  | [] => UInt8.ofNat (group.length + 1) :: group
  | b :: rest =>
      if b = 0 then UInt8.ofNat (group.length + 1) :: (group ++ stuffFrom [] rest)
      else if group.length + 2 = 255 then 255 :: (group ++ b :: stuffFrom [] rest)
      else stuffFrom (group ++ [b]) rest

def stuff (data : Bytes) : Bytes := stuffFrom [] data

theorem stuffFrom_ne_nil (group data : Bytes) : stuffFrom group data ≠ [] := by
  induction data generalizing group with
  | nil => simp [stuffFrom]
  | cons b rest ih =>
      rw [stuffFrom]
      split_ifs
      · simp
      · simp
      · exact ih _

theorem code_ne_zero {length : ℕ} (h : length ≤ 253) : UInt8.ofNat (length + 1) ≠ 0 := by
  intro hzero
  have hnat := congrArg UInt8.toNat hzero
  rw [UInt8.toNat_ofNat', Nat.mod_eq_of_lt (by omega)] at hnat
  exact absurd hnat (by simp)

theorem stuffFrom_nonzero {group : Bytes} (hg : ∀ b ∈ group, b ≠ 0) (hlen : group.length ≤ 253)
    (data : Bytes) : ∀ b ∈ stuffFrom group data, b ≠ 0 := by
  induction data generalizing group with
  | nil =>
      intro b hb
      rcases List.mem_cons.mp hb with rfl | hb
      · exact code_ne_zero hlen
      · exact hg b hb
  | cons x rest ih =>
      intro b hb
      rw [stuffFrom] at hb
      split_ifs at hb with hx hfull
      · simp only [List.mem_cons, List.mem_append] at hb
        rcases hb with rfl | hb | hb
        · exact code_ne_zero hlen
        · exact hg b hb
        · exact ih (by simp) (by simp) b hb
      · simp only [List.mem_cons, List.mem_append] at hb
        rcases hb with rfl | hb | rfl | hb
        · decide
        · exact hg b hb
        · exact hx
        · exact ih (by simp) (by simp) b hb
      · refine ih ?_ (by rw [List.length_append, List.length_singleton]; omega) b hb
        intro c hc
        rcases List.mem_append.mp hc with hc | hc
        · exact hg c hc
        · rw [List.mem_singleton.mp hc]; exact hx

theorem lt_stuffFrom_length (group data : Bytes) :
    group.length + data.length < (stuffFrom group data).length := by
  induction data generalizing group with
  | nil => simp [stuffFrom]
  | cons x rest ih =>
      have hempty := ih []
      rw [stuffFrom]
      split_ifs with hx hfull
      · simp only [List.length_cons, List.length_append, List.length_nil] at hempty ⊢
        omega
      · simp only [List.length_cons, List.length_append, List.length_nil] at hempty ⊢
        omega
      · have hopen := ih (group ++ [x])
        rw [List.length_append, List.length_singleton] at hopen
        rw [List.length_cons]
        omega

/-- One code byte, plus one for every full group. -/
theorem stuffFrom_length_le {group : Bytes} (hlen : group.length ≤ 253) (data : Bytes) :
    (stuffFrom group data).length ≤
      group.length + data.length + 1 + (group.length + data.length) / 254 := by
  induction data generalizing group with
  | nil => simp only [stuffFrom, List.length_cons, List.length_nil]; omega
  | cons x rest ih =>
      have hempty := @ih [] (by simp)
      simp only [List.length_nil, zero_add] at hempty
      rw [stuffFrom]
      split_ifs with hx hfull
      · simp only [List.length_cons, List.length_append]
        omega
      · simp only [List.length_cons, List.length_append]
        omega
      · have hopen := @ih (group ++ [x])
          (by rw [List.length_append, List.length_singleton]; omega)
        rw [List.length_append, List.length_singleton] at hopen
        rw [List.length_cons]
        omega

/-! ## Unstuffing -/

def unstuff (data : Bytes) : Option Bytes :=
  match data with
  | [] => some []
  | code :: rest =>
      if code = 0 ∨ rest.length < code.toNat - 1 then none
      else
        (unstuff (rest.drop (code.toNat - 1))).map fun tail =>
          rest.take (code.toNat - 1) ++
            (if code < 0xFF ∧ rest.drop (code.toNat - 1) ≠ [] then 0 :: tail else tail)
termination_by data.length
decreasing_by
  rw [List.length_drop, List.length_cons]
  omega

@[simp] theorem unstuff_nil : unstuff [] = some [] := by rw [unstuff]

theorem unstuff_cons (code : UInt8) (rest : Bytes) :
    unstuff (code :: rest) =
      if code = 0 ∨ rest.length < code.toNat - 1 then none
      else
        (unstuff (rest.drop (code.toNat - 1))).map fun tail =>
          rest.take (code.toNat - 1) ++
            (if code < 0xFF ∧ rest.drop (code.toNat - 1) ≠ [] then 0 :: tail else tail) := by
  rw [unstuff]

theorem unstuff_group {code : UInt8} {group rest : Bytes} (hcode : code ≠ 0)
    (hlen : group.length = code.toNat - 1) :
    unstuff (code :: (group ++ rest)) = (unstuff rest).map fun tail =>
      group ++ (if code < 0xFF ∧ rest ≠ [] then 0 :: tail else tail) := by
  have hfits : ¬(code = 0 ∨ (group ++ rest).length < code.toNat - 1) := by
    rw [List.length_append]
    rintro (h | h)
    · exact hcode h
    · omega
  rw [unstuff_cons, if_neg hfits, ← hlen, List.drop_left, List.take_left]

/-- A code and the bytes it announces. -/
def WholeGroup (group : Bytes) : Prop :=
  ∃ code body, group = code :: body ∧ code ≠ 0 ∧ body.length = code.toNat - 1

/-- A code of zero, or one that announces more bytes than are left. -/
def BadGroup (data : Bytes) : Prop :=
  ∃ code rest, data = code :: rest ∧ (code = 0 ∨ rest.length < code.toNat - 1)

/-- Unstuffing fails exactly where a bad group follows whole ones. -/
theorem unstuff_eq_none_iff (data : Bytes) :
    unstuff data = none ↔ ∃ (groups : List Bytes) (rest : Bytes), data = groups.flatten ++ rest ∧
      (∀ group ∈ groups, WholeGroup group) ∧ BadGroup rest := by
  constructor
  · intro h
    induction data using unstuff.induct with
    | case1 => rw [unstuff_nil] at h; cases h
    | case2 code rest hbad =>
        exact ⟨[], code :: rest, rfl, List.forall_mem_nil _, code, rest, rfl, hbad⟩
    | case3 code rest hgood ih =>
        rw [unstuff_cons, if_neg hgood, Option.map_eq_none_iff] at h
        obtain ⟨groups, back, hsplit, hgroups, hbad⟩ := ih h
        rw [not_or] at hgood
        have hwhole : WholeGroup (code :: rest.take (code.toNat - 1)) :=
          ⟨code, _, rfl, hgood.1, by rw [List.length_take]; omega⟩
        refine ⟨(code :: rest.take (code.toNat - 1)) :: groups, back, ?_,
          List.forall_mem_cons.mpr ⟨hwhole, hgroups⟩, hbad⟩
        rw [List.flatten_cons, List.append_assoc, ← hsplit, List.cons_append,
          List.take_append_drop]
  · rintro ⟨groups, rest, rfl, hgroups, hbad⟩
    induction groups with
    | nil =>
        obtain ⟨code, back, rfl, hbad⟩ := hbad
        rw [List.flatten_nil, List.nil_append, unstuff_cons, if_pos hbad]
    | cons group groups ih =>
        obtain ⟨hfirst, hrest⟩ := List.forall_mem_cons.mp hgroups
        obtain ⟨code, body, rfl, hcode, hlength⟩ := hfirst
        rw [List.flatten_cons, List.append_assoc, List.cons_append, unstuff_group hcode hlength,
          ih hrest]
        rfl

/-- Unstuffing returns the open group and everything stuffed after it. -/
theorem unstuff_stuffFrom {group : Bytes} (hlen : group.length ≤ 253) (data : Bytes) :
    unstuff (stuffFrom group data) = some (group ++ data) := by
  have hshort : ∀ {n : ℕ}, n ≤ 253 → (UInt8.ofNat (n + 1)).toNat = n + 1 := by
    intro n hn
    rw [UInt8.toNat_ofNat']
    exact Nat.mod_eq_of_lt (by omega)
  induction data generalizing group with
  | nil =>
      have h := @unstuff_group _ group [] (code_ne_zero hlen)
        (by rw [hshort hlen, Nat.add_sub_cancel])
      rw [List.append_nil] at h
      rw [stuffFrom, h]
      simp
  | cons x rest ih =>
      rw [stuffFrom]
      split_ifs with hx hfull
      · have hlt : UInt8.ofNat (group.length + 1) < 0xFF := by
          rw [UInt8.lt_iff_toNat_lt, hshort hlen]
          change _ < 255
          omega
        rw [unstuff_group (code_ne_zero hlen) (by rw [hshort hlen, Nat.add_sub_cancel]),
          ih (by simp), Option.map_some, if_pos ⟨hlt, stuffFrom_ne_nil _ _⟩, hx]
        rfl
      · have hgroup : (group ++ [x]).length = (255 : UInt8).toNat - 1 := by
          rw [List.length_append, List.length_singleton]
          change _ = 254
          omega
        have h := @unstuff_group 255 _ (stuffFrom [] rest) (by decide) hgroup
        rw [List.append_assoc, List.singleton_append] at h
        rw [h, ih (by simp), Option.map_some, if_neg (fun h => absurd h.1 (by decide))]
        simp
      · rw [ih (by rw [List.length_append, List.length_singleton]; omega), List.append_assoc,
          List.singleton_append]

theorem unstuff_stuff (data : Bytes) : unstuff (stuff data) = some data :=
  unstuff_stuffFrom (by simp) data

theorem stuff_nonzero (data : Bytes) : ∀ b ∈ stuff data, b ≠ 0 :=
  stuffFrom_nonzero (by simp) (by simp) data

theorem stuff_length_le (data : Bytes) :
    (stuff data).length ≤ data.length + 1 + data.length / 254 := by
  simpa [stuff] using @stuffFrom_length_le [] (by simp) data

/-! ## Short stuffed data is canonical -/

/-- Nonzero data that does not fill a group joins the open one. -/
theorem stuffFrom_append {group more : Bytes} (hmore : ∀ b ∈ more, b ≠ 0)
    (hlen : group.length + more.length ≤ 253) (data : Bytes) :
    stuffFrom group (more ++ data) = stuffFrom (group ++ more) data := by
  induction more generalizing group with
  | nil => rw [List.nil_append, List.append_nil]
  | cons b more ih =>
      have hb : b ≠ 0 := hmore b List.mem_cons_self
      rw [List.length_cons] at hlen
      rw [List.cons_append, stuffFrom, if_neg hb, if_neg (by omega),
        ih (fun c hc => hmore c (List.mem_cons_of_mem b hc))
          (by rw [List.length_append, List.length_singleton]; omega),
        List.append_assoc, List.singleton_append]

/-- Too short for a full group, nonzero bytes are the stuffing of what they unstuff to. -/
theorem stuff_of_unstuff {body data : Bytes} (hbody : ∀ b ∈ body, b ≠ 0)
    (hshort : body.length ≤ 254) (hne : body ≠ []) (h : unstuff body = some data) :
    stuff data = body := by
  induction body using unstuff.induct generalizing data with
  | case1 => exact absurd rfl hne
  | case2 code rest hbad => rw [unstuff_cons, if_pos hbad] at h; cases h
  | case3 code rest hgood ih =>
      rw [unstuff_cons, if_neg hgood] at h
      obtain ⟨tail, htail, rfl⟩ := Option.map_eq_some_iff.mp h
      rw [not_or] at hgood
      obtain ⟨hcode, hfits⟩ := hgood
      rw [List.length_cons] at hshort
      have hpos : 0 < code.toNat := Nat.pos_of_ne_zero fun hzero => hcode (UInt8.toNat_inj.mp hzero)
      have hlt : code < 0xFF := by
        rw [UInt8.lt_iff_toNat_lt]
        change _ < 255
        omega
      set group := rest.take (code.toNat - 1) with hgroup
      set after := rest.drop (code.toNat - 1) with hafter
      have hrest : group ++ after = rest := List.take_append_drop _ _
      have hlength : group.length = code.toNat - 1 := by
        rw [hgroup, List.length_take]
        omega
      have hnonzero : ∀ b ∈ group, b ≠ 0 := fun b hb =>
        hbody b (List.mem_cons_of_mem _ (List.mem_of_mem_take hb))
      have hopen : UInt8.ofNat (group.length + 1) = code := by
        rw [hlength, Nat.sub_add_cancel hpos, UInt8.ofNat_toNat]
      have hroom : ([] : Bytes).length + group.length ≤ 253 := by
        rw [List.length_nil]
        omega
      rw [stuff, stuffFrom_append hnonzero hroom, List.nil_append]
      by_cases hlast : after = []
      · rw [hlast, unstuff_nil] at htail
        cases htail
        rw [if_neg fun hmore => hmore.2 hlast, stuffFrom, hopen, ← hrest, hlast, List.append_nil]
      · have hstuff : stuff tail = after :=
          ih (fun b hb => hbody b (List.mem_cons_of_mem _ (List.mem_of_mem_drop hb)))
            (by rw [hafter, List.length_drop]; omega) hlast htail
        rw [if_pos ⟨hlt, hlast⟩, stuffFrom, if_pos rfl, hopen]
        rw [stuff] at hstuff
        rw [hstuff, hrest]

end Stuffing
