import Sentinel.Access.InvitationCode

/-!
# Proofs: invitation codes

A canonical text is eight groups of four characters, joined by hyphens. Without the hyphens it is a numeral in base 32
of the number whose bytes are the secret, so that the two functions are inverse to each other.
-/

namespace Sentinel.Access.InvitationCode

open Numerals

/-! ## Canonical texts -/

/-- A group of a display form. -/
def IsGroup (g : List Char) : Prop := g.length = groupSize ∧ ∀ c ∈ g, c ∈ alphabet

variable {n : Nat} {rest cs : List Char} {gs : List (List Char)} {secret : List UInt8}

theorem matchClass_iff : matchClass n cs = some rest ↔ ∃ g, g.length = n ∧ (∀ c ∈ g, c ∈ alphabet) ∧ cs = g ++ rest := by
  induction n generalizing cs with
  | zero => simp [matchClass]
  | succ n ih =>
    cases cs with
    | nil => 
      simp only [matchClass, false_iff, reduceCtorEq]
      rintro ⟨g, hlen, -, heq⟩
      have hg := congrArg List.length heq
      simp at hg
      omega
    | cons c cs =>
      constructor
      · intro h
        simp only [matchClass] at h
        split_ifs at h with hc
        obtain ⟨g, hlen, hg, rfl⟩ := ih.mp h
        refine ⟨c :: g, by simp [hlen], ?_, rfl⟩
        simpa [hc] using hg
      · rintro ⟨g, hlen, hg, heq⟩
        cases g with
        | nil => simp at hlen
        | cons d g =>
          obtain ⟨rfl, rfl⟩ := List.cons.inj heq
          have hd : c ∈ alphabet := hg c List.mem_cons_self
          rw [matchClass, if_pos hd, ih]
          exact ⟨g, by simpa using hlen, fun e he => hg e (List.mem_cons_of_mem _ he), rfl⟩

theorem matchGroups_iff : matchGroups n cs = some rest ↔
      ∃ gs : List (List Char), gs.length = n ∧ (∀ g ∈ gs, IsGroup g) ∧ cs = gs.flatMap ('-' :: ·) ++ rest := by
  induction n generalizing cs with
  | zero => simp [matchGroups]
  | succ n ih =>
    cases cs with
    | nil =>
      simp only [matchGroups, false_iff, reduceCtorEq]
      rintro ⟨gs, hlen, -, heq⟩
      cases gs with
      | nil => simp at hlen
      | cons g gs => simp at heq
    | cons c cs =>
      constructor
      · intro h
        simp only [matchGroups] at h
        split_ifs at h with hc
        obtain ⟨mid, hmid, hrest⟩ := Option.bind_eq_some_iff.mp h
        obtain ⟨g, hlen, hg, rfl⟩ := matchClass_iff.mp hmid
        obtain ⟨gs, hgs, hgroups, rfl⟩ := ih.mp hrest
        refine ⟨g :: gs, by simp [hgs], ?_, by simp [hc]⟩
        simpa using ⟨⟨hlen, hg⟩, hgroups⟩
      · rintro ⟨gs, hlen, hgs, heq⟩
        cases gs with
        | nil => simp at hlen
        | cons g gs =>
          simp only [List.flatMap_cons, List.cons_append, List.append_assoc, List.cons.injEq] at heq
          obtain ⟨rfl, rfl⟩ := heq
          have hg := hgs g List.mem_cons_self
          rw [matchGroups, if_pos rfl, matchClass_iff.mpr ⟨g, hg.1, hg.2, rfl⟩, Option.bind_some, ih]
          exact ⟨gs, by simpa using hlen, fun g' hg' => hgs g' (List.mem_cons_of_mem _ hg'), rfl⟩

theorem intercalate_hyphen (g : List Char) (gs : List (List Char)) :
    List.intercalate ['-'] (g :: gs) = g ++ gs.flatMap ('-' :: ·) := by
  induction gs generalizing g with
  | nil => simp [List.intercalate]
  | cons g' gs ih => simp [List.intercalate_cons_cons, ih]

theorem canonical_iff : canonical cs = true ↔ ∃ gs, gs.length = 8 ∧ (∀ g ∈ gs, IsGroup g) ∧ cs = List.intercalate ['-'] gs := by
  simp only [canonical, beq_iff_eq, Option.bind_eq_some_iff, matchClass_iff, matchGroups_iff]
  constructor
  · rintro ⟨mid, ⟨g, hlen, hg, rfl⟩, gs, hgs, hgroups, rfl⟩
    refine ⟨g :: gs, by simp [hgs, characters, codeBytes, groupSize], ?_, by simp [intercalate_hyphen]⟩
    simpa using ⟨⟨hlen, hg⟩, hgroups⟩
  · rintro ⟨gs, hlen, hgs, rfl⟩
    cases gs with
    | nil => simp at hlen
    | cons g gs =>
      have hg := hgs g List.mem_cons_self
      refine ⟨_, ⟨g, hg.1, hg.2, intercalate_hyphen g gs⟩, gs, ?_, ?_, by simp⟩
      · simp only [List.length_cons] at hlen
        simp only [characters, codeBytes, groupSize]
        omega
      · intro g' hg'
        exact hgs g' (List.mem_cons_of_mem _ hg')

/-! ## Groups -/

theorem flatten_groups (k n : Nat) (cs : List Char) :
    ((List.range n).map fun i => (cs.drop (k * i)).take k).flatten = cs.take (k * n) := by
  induction n with
  | zero => simp
  | succ n ih => rw [List.range_succ, List.map_append, List.flatten_append, ih, Nat.mul_succ, List.take_add]; simp

theorem groups_flatten {k : Nat} (h : ∀ g ∈ gs, g.length = k) :
    ((List.range gs.length).map fun i => (gs.flatten.drop (k * i)).take k) = gs := by
  induction gs with
  | nil => rfl
  | cons g gs ih =>
    have hg : g.length = k := h g List.mem_cons_self
    have htail := ih fun g' hg' => h g' (List.mem_cons_of_mem _ hg')
    rw [List.length_cons, List.range_succ_eq_map, List.map_cons, List.map_map]
    congr 1
    · simp [← hg]
    · refine (List.map_congr_left ?_).trans htail
      intro i _
      have hdrop : k * (i + 1) = g.length + k * i := by rw [hg]; ring
      have hnil : g.drop (g.length + k * i) = [] := List.drop_eq_nil_of_le (by omega)
      simp [hdrop, List.drop_append, hnil]

theorem filter_group {g : List Char} (h : ∀ c ∈ g, c ∈ alphabet) : g.filter (· ≠ '-') = g := by
  rw [List.filter_eq_self]
  intro c hc
  have hne : c ≠ '-' := by
    rintro rfl
    exact absurd (h _ hc) (by decide)
  simpa using hne

theorem filter_intercalate (h : ∀ g ∈ gs, ∀ c ∈ g, c ∈ alphabet) : (List.intercalate ['-'] gs).filter (· ≠ '-') = gs.flatten := by
  have htail (gs : List (List Char)) (h : ∀ g ∈ gs, ∀ c ∈ g, c ∈ alphabet) :
      (gs.flatMap ('-' :: ·)).filter (· ≠ '-') = gs.flatten := by
    induction gs with
    | nil => rfl
    | cons g gs ih =>
      have hg := filter_group (h g List.mem_cons_self)
      have hgs := ih fun g' hg' => h g' (List.mem_cons_of_mem _ hg')
      rw [List.flatMap_cons, List.filter_append, hgs, List.filter_cons_of_neg (by simp), hg, List.flatten_cons]
  cases gs with
  | nil => rfl
  | cons g gs =>
    have hg := filter_group (h g List.mem_cons_self)
    rw [intercalate_hyphen, List.filter_append, hg, htail gs fun g' hg' => h g' (List.mem_cons_of_mem _ hg')]
    rfl

/-! ## The number of a text -/

theorem shift_or {d : Nat} (hd : d < 32) : n <<< 5 ||| d = n * 32 + d := by
  rw [← Nat.shiftLeft_add_eq_or_of_lt (by simpa using hd), Nat.shiftLeft_eq]

theorem foldl_shift {ds : List Nat} (h : ∀ d ∈ ds, d < 32) (n : Nat) :
    ds.foldl (fun n d => n <<< 5 ||| d) n = ds.foldl (fun n d => n * 32 + d) n := by
  induction ds generalizing n with
  | nil => rfl
  | cons d ds ih =>
    rw [List.foldl_cons, List.foldl_cons, shift_or (h d List.mem_cons_self)]
    exact ih (fun e he => h e (List.mem_cons_of_mem _ he)) _

theorem idxOf_lt {c : Char} (hc : c ∈ alphabet) : alphabet.idxOf c < 32 := List.idxOf_lt_length_of_mem hc

theorem idxOf_flatten_lt (h : ∀ g ∈ gs, IsGroup g) : ∀ d ∈ gs.flatten.map alphabet.idxOf, d < 32 := by
  intro d hd
  obtain ⟨c, hc, rfl⟩ := List.mem_map.mp hd
  obtain ⟨g, hg, hcg⟩ := List.mem_flatten.mp hc
  exact idxOf_lt ((h g hg).2 c hcg)

theorem number_eq (h : ∀ g ∈ gs, IsGroup g) : (List.intercalate ['-'] gs).foldl
        (fun number c => if c ≠ '-' then (number <<< 5) ||| alphabet.idxOf c else number) 0 =
      value 32 (gs.flatten.map alphabet.idxOf) := by
  have hfilter := filter_intercalate fun g hg => (h g hg).2
  have hfold := foldl_shift (idxOf_flatten_lt h) 0
  rw [value, ← hfold, List.foldl_map, ← hfilter, List.foldl_filter]
  simp

/-! ## The display form -/

/-- The characters of a secret, without the hyphens. -/
def plain (secret : List UInt8) : List Char :=
  (digits 32 characters (ofBytes .big secret)).map (alphabet.getD · '0')

theorem encode_eq (secret : List UInt8) :
    encode secret = String.ofList (List.intercalate ['-']
      ((List.range 8).map fun i => ((plain secret).drop (groupSize * i)).take groupSize)) := by
  have hdigit (v i : Nat) : (v >>> (5 * i)) &&& 31 = v / 32 ^ i % 32 := by
    rw [Nat.shiftRight_eq_div_pow, Nat.pow_mul]
    exact Nat.and_two_pow_sub_one_eq_mod _ 5
  have hplain : ((List.range characters).map fun index =>
      alphabet.getD ((ofBytes .big secret >>> (5 * index)) &&& 31) '0').reverse = plain secret := by
    simp only [hdigit, plain, digits, List.map_reverse, List.map_map]
    rfl
  simp only [encode, hplain]
  rfl

theorem getD_idxOf (c : Char) (hc : c ∈ alphabet) : alphabet.getD (alphabet.idxOf c) '0' = c := by
  have hlt := List.idxOf_lt_length_iff.mpr hc
  rw [List.getD_eq_getElem?_getD, List.getElem?_eq_getElem hlt, Option.getD_some, List.getElem_idxOf]

theorem getD_mem : ∀ d < 32, alphabet.getD d '0' ∈ alphabet := by decide

theorem idxOf_getD : ∀ d < 32, alphabet.idxOf (alphabet.getD d '0') = d := by decide

@[simp] theorem length_plain (secret : List UInt8) : (plain secret).length = 32 := by
  simp [plain, characters, codeBytes]

theorem mem_plain {c : Char} (hc : c ∈ plain secret) : c ∈ alphabet := by
  obtain ⟨d, hd, rfl⟩ := List.mem_map.mp hc
  exact getD_mem d (lt_of_mem_digits (by decide) hd)

theorem idxOf_plain (secret : List UInt8) :
    (plain secret).map alphabet.idxOf = digits 32 characters (ofBytes .big secret) := by
  rw [plain, List.map_map]
  nth_rewrite 2 [← List.map_id (digits 32 characters (ofBytes .big secret))]
  refine List.map_congr_left ?_
  intro d hd
  exact idxOf_getD d (lt_of_mem_digits (by decide) hd)

theorem pow_eq : 32 ^ characters = 256 ^ codeBytes := by decide

/-! ## Parsing -/

/-- The secret that a text of these groups is parsed to. -/
def secretOf (gs : List (List Char)) : List UInt8 :=
  toBytes .big codeBytes (value 32 (gs.flatten.map alphabet.idxOf))

theorem length_flatMap_group {f : List Char → List Char} {k : Nat} (h : ∀ g ∈ gs, (f g).length = k) :
    (gs.flatMap f).length = gs.length * k := by
  induction gs with
  | nil => simp
  | cons g gs ih =>
    have hg := h g List.mem_cons_self
    have hgs := ih fun g' hg' => h g' (List.mem_cons_of_mem _ hg')
    rw [List.flatMap_cons, List.length_append, hg, hgs, List.length_cons]
    ring

theorem length_intercalate (hlen : gs.length = 8) (h : ∀ g ∈ gs, IsGroup g) :
    (List.intercalate ['-'] gs).length = displayLength := by
  cases gs with
  | nil => simp at hlen
  | cons g gs =>
    have hg : g.length = 4 := (h g List.mem_cons_self).1
    have hgs : (gs.flatMap ('-' :: ·)).length = gs.length * 5 := by
      refine length_flatMap_group ?_
      intro g' hg'
      have hlen' : g'.length = 4 := (h g' (List.mem_cons_of_mem _ hg')).1
      simp [hlen']
    simp only [List.length_cons] at hlen
    rw [intercalate_hyphen, List.length_append, hg, hgs, show gs.length = 7 by omega]
    rfl

theorem length_flatten (hlen : gs.length = 8) (h : ∀ g ∈ gs, IsGroup g) : gs.flatten.length = characters := by
  have hflat := length_flatMap_group (f := id) fun g hg => (h g hg).1
  rw [List.flatMap_id, hlen] at hflat
  exact hflat

theorem value_lt_of_groups (hlen : gs.length = 8) (h : ∀ g ∈ gs, IsGroup g) :
    value 32 (gs.flatten.map alphabet.idxOf) < 256 ^ codeBytes := by
  have hlt := value_lt (by decide) (idxOf_flatten_lt h)
  rw [List.length_map, length_flatten hlen h, pow_eq] at hlt
  exact hlt

theorem parse_of_groups (hlen : gs.length = 8) (h : ∀ g ∈ gs, IsGroup g) :
    parseInvitationCode (String.ofList (List.intercalate ['-'] gs)) = .ok (secretOf gs) := by
  have hcanonical : canonical (List.intercalate ['-'] gs) = true := canonical_iff.mpr ⟨gs, hlen, h, rfl⟩
  have hlength := length_intercalate hlen h
  have hnumber := number_eq h
  simp only [parseInvitationCode, String.toList_ofList]
  rw [if_neg (by simp [hlength, hcanonical]), hnumber, if_pos (value_lt_of_groups hlen h)]
  rfl

theorem parse_cases (text : String) :
    parseInvitationCode text = .error .invalid ∨
      ∃ gs, gs.length = 8 ∧ (∀ g ∈ gs, IsGroup g) ∧ text = String.ofList (List.intercalate ['-'] gs) := by
  by_cases hcanonical : canonical text.toList = true
  · obtain ⟨gs, hlen, h, heq⟩ := canonical_iff.mp hcanonical
    exact .inr ⟨gs, hlen, h, by rw [← heq, String.ofList_toList]⟩
  · exact .inl (by simp [parseInvitationCode, hcanonical])

/-- The groups of a secret. -/
def groupsOf (secret : List UInt8) : List (List Char) :=
  (List.range 8).map fun i => ((plain secret).drop (groupSize * i)).take groupSize

theorem groupsOf_isGroup (secret : List UInt8) : ∀ g ∈ groupsOf secret, IsGroup g := by
  intro g hg
  obtain ⟨i, hi, rfl⟩ := List.mem_map.mp hg
  have hlt : i < 8 := List.mem_range.mp hi
  constructor
  · simp only [List.length_take, List.length_drop, length_plain, groupSize]
    omega
  · intro c hc
    exact mem_plain (List.mem_of_mem_drop (List.mem_of_mem_take hc))

theorem flatten_groupsOf (secret : List UInt8) : (groupsOf secret).flatten = plain secret := by
  rw [groupsOf, flatten_groups, List.take_of_length_le]
  simp [groupSize]

theorem secretOf_groupsOf (h : secret.length = codeBytes) : secretOf (groupsOf secret) = secret := by
  have hlt : ofBytes .big secret < 32 ^ characters := by
    rw [pow_eq, ← h]
    exact ofBytes_lt _ _
  rw [secretOf, flatten_groupsOf, idxOf_plain, value_digits hlt, ← h, toBytes_ofBytes]

theorem groupsOf_secretOf (hlen : gs.length = 8) (h : ∀ g ∈ gs, IsGroup g) : groupsOf (secretOf gs) = gs := by
  have hplain : plain (secretOf gs) = gs.flatten := by
    have hdigits := digits_value (by decide) (idxOf_flatten_lt h)
    rw [List.length_map, length_flatten hlen h] at hdigits
    rw [plain, secretOf, ofBytes_toBytes (value_lt_of_groups hlen h), hdigits, List.map_map]
    nth_rewrite 2 [← List.map_id gs.flatten]
    refine List.map_congr_left ?_
    intro c hc
    obtain ⟨g, hg, hcg⟩ := List.mem_flatten.mp hc
    exact getD_idxOf c ((h g hg).2 c hcg)
  have hgroups := groups_flatten fun g hg => (h g hg).1
  rw [hlen] at hgroups
  rw [groupsOf, hplain, hgroups]

/-! ## The bijection -/

/-- Invitation codes are a bijection between the secrets of twenty bytes and the accepted texts. What a secret is shown as
is parsed to it, an accepted text is what its secret is shown as, so that it is the only text of this secret, and no text
overflows. -/
theorem invitation_code_bijection :
    (∀ secret, secret.length = codeBytes →
      ∃ text, formatInvitationCode secret = .ok text ∧ parseInvitationCode text = .ok secret) ∧
    (∀ text secret, parseInvitationCode text = .ok secret →
      secret.length = codeBytes ∧ formatInvitationCode secret = .ok text) ∧
    (∀ text text' secret, parseInvitationCode text = .ok secret → parseInvitationCode text' = .ok secret → text = text') ∧
    ∀ text, parseInvitationCode text ≠ .error .overflow := by
  have hshown (text secret) (h : parseInvitationCode text = .ok secret) :
      secret.length = codeBytes ∧ formatInvitationCode secret = .ok text := by
    rcases parse_cases text with herror | ⟨gs, hlen, hgs, rfl⟩
    · rw [herror] at h
      cases h
    · rw [parse_of_groups hlen hgs] at h
      obtain rfl := Except.ok.inj h
      have hlength : (secretOf gs).length = codeBytes := length_toBytes _ _ _
      refine ⟨hlength, ?_⟩
      rw [formatInvitationCode, if_pos hlength, encode_eq]
      exact congrArg (fun gs => Except.ok (String.ofList (List.intercalate ['-'] gs))) (groupsOf_secretOf hlen hgs)
  refine ⟨?_, hshown, ?_, ?_⟩
  · intro secret h
    refine ⟨encode secret, by rw [formatInvitationCode, if_pos h], ?_⟩
    have hparse := parse_of_groups (by simp [groupsOf]) (groupsOf_isGroup secret)
    rw [secretOf_groupsOf h] at hparse
    rw [encode_eq]
    exact hparse
  · intro text text' secret h h'
    exact Except.ok.inj ((hshown text secret h).2.symm.trans (hshown text' secret h').2)
  · intro text h
    rcases parse_cases text with herror | ⟨gs, hlen, hgs, rfl⟩
    · rw [herror] at h
      cases h
    · rw [parse_of_groups hlen hgs] at h
      cases h

end Sentinel.Access.InvitationCode
