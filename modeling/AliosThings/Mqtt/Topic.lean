import Mathlib

/-!
# Topic filters of the MQTT client

`iotx_mc_check_topic` accepts a subscription's filter; `iotx_mc_is_topic_matched`
decides whether the name of an incoming PUBLISH matches it, walking one cursor over
the filter, a C string, and one over the name, a length-delimited byte string. MQTT
3.1.1 (section 4.7) states matching on levels, the parts between `/`: `+` matches
exactly one level, possibly empty, a final `#` matches its parent level and any
number of levels below, and any other level must be equal.

The walk never matches a name that the rule rejects, for filters whose levels are
well formed. It misses two cases of the rule: a `+` facing an empty level, and a final
`#` facing no level at all. And `iotx_mc_check_topic` checks only the first 127 bytes
of a filter of 128, so a `+` in the last byte escapes its check and makes the walk
match names the rule rejects.
-/

namespace Mqtt

def slash : UInt8 := 47
def plus : UInt8 := 43
def hash : UInt8 := 35

def iotxMcTopicNameMaxLen : Nat := 128

/-! ## The code -/

/-- `iotx_mc_check_rule` for `TOPIC_FILTER_TYPE`: `+` and `#` only alone, and printable
ASCII. -/
def checkRuleFilter (iterm : List UInt8) : Bool :=
  iterm.all fun c => ((c != plus && c != hash) || iterm.length == 1) && 32 ≤ c.toNat && c.toNat < 127

/-- The tokens `strtok` returns for the delimiter `/`: the non-empty runs between
slashes. -/
def strtokTokens (s : List UInt8) : List (List UInt8) := (s.splitOn slash).filter (· ≠ [])

/-- The loop of `iotx_mc_check_topic` after the first token: `mask` is set by a token
that starts with `#`, and no token may follow it. -/
def checkRest : Bool → List (List UInt8) → Bool
  | _, [] => true
  | mask, tok :: toks => !mask && checkRuleFilter tok && checkRest (tok.head? == some hash) toks

/-- `iotx_mc_check_topic(topicName, TOPIC_FILTER_TYPE) == SUCCESS_RETURN`. The tokens
are those of the copy `strncpy` makes into `topicString`, at most
`IOTX_MC_TOPIC_NAME_MAX_LEN - 1` bytes. -/
def iotxMcCheckTopicFilter (topicName : List UInt8) : Bool :=
  topicName.head? == some slash && topicName.length ≤ iotxMcTopicNameMaxLen &&
    match strtokTokens (topicName.take (iotxMcTopicNameMaxLen - 1)) with
    | [] => false
    | tok :: toks => checkRuleFilter tok && checkRest false toks

/-- `iotx_mc_is_topic_matched`. Each turn of the loop moves the filter cursor by one:
a `+` moves the name cursor to the next `/`, a `#` to the end of the name. The loop
stops at the end of either, and a `break` leaves the name cursor short of its end. -/
def iotxMcIsTopicMatched : List UInt8 → List UInt8 → Bool
  | [], n => n.isEmpty
  | _ :: _, [] => false
  | f :: fs, c :: cs =>
    if c == slash && f != slash then false
    else if f != plus && f != hash && f != c then false
    else if f == plus then iotxMcIsTopicMatched fs (cs.dropWhile (· != slash))
    else if f == hash then iotxMcIsTopicMatched fs []
    else iotxMcIsTopicMatched fs cs

/-! ## The rule of MQTT 3.1.1 -/

/-- Matching on levels. -/
def levelsMatch : List (List UInt8) → List (List UInt8) → Bool
  | [], ns => ns.isEmpty
  | l :: ls, ns =>
    if l == [hash] && ls.isEmpty then true
    else
      match ns with
      | [] => false
      | n :: ns => (l == [plus] || l == n) && levelsMatch ls ns

/-- A name matches a filter. -/
def topicMatches (filter name : List UInt8) : Bool :=
  levelsMatch (filter.splitOn slash) (name.splitOn slash)

/-- A level of a well-formed filter: `+` alone, `#` alone, or neither of them and no
`/`. -/
def LevelOk (l : List UInt8) : Prop :=
  l = [plus] ∨ l = [hash] ∨ (slash ∉ l ∧ plus ∉ l ∧ hash ∉ l)

/-! ## The walk over one level -/

theorem plus_ne_slash : plus ≠ slash := by decide
theorem hash_ne_slash : hash ≠ slash := by decide
theorem hash_ne_plus : hash ≠ plus := by decide

/-- A byte of the filter other than a wildcard, `/` included, must meet the same byte. -/
theorem matched_char {f : UInt8} {fs t : List UInt8} (hp : f ≠ plus) (hh : f ≠ hash)
    (h : iotxMcIsTopicMatched (f :: fs) t = true) :
    ∃ t', t = f :: t' ∧ iotxMcIsTopicMatched fs t' = true := by
  cases t with
  | nil => simp [iotxMcIsTopicMatched] at h
  | cons c cs =>
    by_cases hfc : f = c
    · subst hfc
      exact ⟨cs, rfl, by simpa [iotxMcIsTopicMatched, hp, hh] using h⟩
    · -- the loop breaks, at its first test or at its second
      simp [iotxMcIsTopicMatched, hp, hh, hfc] at h

/-- A level with no wildcard must be met by the same bytes. -/
theorem matched_literal {w : List UInt8} (hw : plus ∉ w ∧ hash ∉ w) :
    ∀ {fs t : List UInt8}, iotxMcIsTopicMatched (w ++ fs) t = true →
      ∃ t', t = w ++ t' ∧ iotxMcIsTopicMatched fs t' = true := by
  induction w with
  | nil => intro fs t h; exact ⟨t, rfl, h⟩
  | cons f w ih =>
    intro fs t h
    obtain ⟨hp, hh⟩ := hw
    simp only [List.mem_cons, not_or] at hp hh
    obtain ⟨t₁, rfl, h₁⟩ := matched_char (Ne.symm hp.1) (Ne.symm hh.1) h
    obtain ⟨t', rfl, h'⟩ := ih ⟨hp.2, hh.2⟩ h₁
    exact ⟨t', rfl, h'⟩

/-- A `+` takes a non-empty level of the name, up to its next `/` or its end. -/
theorem matched_plus {fs t : List UInt8} (h : iotxMcIsTopicMatched (plus :: fs) t = true) :
    ∃ w r, t = w ++ r ∧ w ≠ [] ∧ slash ∉ w ∧ iotxMcIsTopicMatched fs r = true := by
  cases t with
  | nil => simp [iotxMcIsTopicMatched] at h
  | cons c cs =>
    by_cases hc : c = slash
    · subst hc
      simp [iotxMcIsTopicMatched, plus_ne_slash] at h
    · have h' : iotxMcIsTopicMatched fs (cs.dropWhile (· != slash)) = true := by
        simpa [iotxMcIsTopicMatched, hc] using h
      -- the inner loop of the `+` branch stops at the first `/` after `c`
      refine ⟨c :: cs.takeWhile (· != slash), cs.dropWhile (· != slash), ?_, List.cons_ne_nil _ _, ?_, h'⟩
      · simp [List.takeWhile_append_dropWhile]
      · rintro (_ | ⟨_, hmem⟩)
        · exact hc rfl
        · simpa using List.mem_takeWhile_imp hmem

/-- After a level, a `/` of the filter must meet a `/` of the name. -/
theorem matched_slash {fs t : List UInt8} (h : iotxMcIsTopicMatched (slash :: fs) t = true) :
    ∃ t', t = slash :: t' ∧ iotxMcIsTopicMatched fs t' = true :=
  matched_char plus_ne_slash.symm hash_ne_slash.symm h

/-- A `#` ends the name, so nothing may follow it in the filter. -/
theorem matched_hash {fs t : List UInt8} (h : iotxMcIsTopicMatched (hash :: fs) t = true) : fs = [] := by
  cases t with
  | nil => simp [iotxMcIsTopicMatched] at h
  | cons c cs =>
    by_cases hc : c = slash
    · subst hc
      simp [iotxMcIsTopicMatched, hash_ne_slash] at h
    · cases fs with
      | nil => rfl
      | cons f fs => simp [iotxMcIsTopicMatched, hc, hash_ne_plus] at h

/-! ## The walk is sound for well-formed filters -/

/-- A level the walk crosses, other than `#`, takes a level of the name with no `/` that
the rule lets it match. -/
theorem matched_level {l fs t : List UInt8} (hl : LevelOk l) (hlh : l ≠ [hash])
    (h : iotxMcIsTopicMatched (l ++ fs) t = true) :
    ∃ w r, t = w ++ r ∧ slash ∉ w ∧ (l == [plus] || l == w) = true ∧
      iotxMcIsTopicMatched fs r = true := by
  rcases hl with rfl | rfl | ⟨hs, hp, hh⟩
  · obtain ⟨w, r, rfl, -, hsw, hr⟩ := matched_plus h
    exact ⟨w, r, rfl, hsw, by simp, hr⟩
  · exact absurd rfl hlh
  · obtain ⟨r, rfl, hr⟩ := matched_literal ⟨hp, hh⟩ h
    exact ⟨l, r, rfl, hs, by simp, hr⟩

theorem levelsMatch_cons_cons {l n : List UInt8} {ls ns : List (List UInt8)} (hls : ls ≠ []) :
    levelsMatch (l :: ls) (n :: ns) = ((l == [plus] || l == n) && levelsMatch ls ns) := by
  cases ls with
  | nil => exact absurd rfl hls
  | cons l' ls => simp [levelsMatch]

/-- The walk over the levels `ls` joined by `/` matches only names whose levels the rule
matches; the induction is on the levels, the last one apart. -/
theorem levels_sound {ls : List (List UInt8)} (hne : ls ≠ []) (hok : ∀ l ∈ ls, LevelOk l)
    {t : List UInt8} (h : iotxMcIsTopicMatched ([slash].intercalate ls) t = true) :
    levelsMatch ls (t.splitOn slash) = true := by
  induction ls generalizing t with
  | nil => exact absurd rfl hne
  | cons l rest ih =>
    have hl := hok l List.mem_cons_self
    by_cases hlh : l = [hash]
    · -- the walk matches nothing after a `#`, so it is the last level
      subst hlh
      cases rest with
      | nil => simp [levelsMatch]
      | cons l' rest' =>
        rw [List.intercalate_cons_cons] at h
        exact absurd (matched_hash (by simpa using h)) (by simp)
    · cases rest with
      | nil =>
        rw [List.intercalate_singleton, ← List.append_nil l] at h
        obtain ⟨w, r, rfl, hsw, hlw, hr⟩ := matched_level hl hlh h
        have hr' : r = [] := by simpa [iotxMcIsTopicMatched] using hr
        subst hr'
        have hlh' : (l == [hash]) = false := by simpa using hlh
        simp [List.splitOn_eq_singleton hsw, levelsMatch, hlh', hlw]
      | cons l' rest' =>
        rw [List.intercalate_cons_cons, List.append_assoc, List.singleton_append] at h
        obtain ⟨w, r, rfl, hsw, hlw, hr⟩ := matched_level hl hlh h
        obtain ⟨t', rfl, ht'⟩ := matched_slash hr
        rw [List.splitOn_append_cons_self_of_not_mem hsw, levelsMatch_cons_cons (List.cons_ne_nil _ _),
          hlw, Bool.true_and]
        exact ih (List.cons_ne_nil _ _) (fun l' hl' => hok l' (List.mem_cons_of_mem _ hl')) ht'

/-- For a filter whose levels are well formed, `iotx_mc_is_topic_matched` matches only
names that the rule matches. -/
theorem isTopicMatched_sound {f t : List UInt8} (hok : ∀ l ∈ f.splitOn slash, LevelOk l)
    (h : iotxMcIsTopicMatched f t = true) : topicMatches f t = true := by
  have hf : [slash].intercalate (f.splitOn slash) = f := List.intercalate_splitOn slash
  rw [← hf] at h
  exact levels_sound (List.splitOn_ne_nil _ _) hok h

/-! ## Filters that `iotx_mc_check_topic` accepts -/

/-- No level of a split holds the separator. -/
theorem not_mem_of_mem_splitOn {α : Type*} [BEq α] [LawfulBEq α] (a : α) :
    ∀ {xs : List α}, ∀ l ∈ xs.splitOn a, a ∉ l := by
  intro xs
  induction xs with
  | nil => simp [List.splitOn_nil]
  | cons x xs ih =>
    intro l hl
    rw [List.splitOn_cons_eq_if_modifyHead] at hl
    split at hl
    · rcases List.mem_cons.mp hl with rfl | hl
      · simp
      · exact ih l hl
    · next hx =>
      -- `x` joins the first level of the rest
      obtain ⟨l₀, ls, hsplit⟩ := List.exists_cons_of_ne_nil (List.splitOn_ne_nil a xs)
      rw [hsplit, List.modifyHead_cons] at hl
      rcases List.mem_cons.mp hl with rfl | hl
      · have h₀ := ih l₀ (by simp [hsplit])
        simp only [List.mem_cons, not_or]
        exact ⟨fun h => hx (by simp [h]), h₀⟩
      · exact ih l (by simp [hsplit, hl])

theorem checkRest_checked {mask : Bool} {toks : List (List UInt8)} (h : checkRest mask toks = true) :
    ∀ tok ∈ toks, checkRuleFilter tok = true := by
  induction toks generalizing mask with
  | nil => simp
  | cons tok toks ih =>
    simp only [checkRest, Bool.and_eq_true] at h
    obtain ⟨⟨-, htok⟩, hrest⟩ := h
    rintro t (_ | ⟨_, ht⟩)
    · exact htok
    · exact ih hrest t ht

/-- Every `strtok` token of an accepted filter passes `iotx_mc_check_rule`. -/
theorem tokens_checked {f : List UInt8} (h : iotxMcCheckTopicFilter f = true) :
    ∀ tok ∈ strtokTokens (f.take (iotxMcTopicNameMaxLen - 1)), checkRuleFilter tok = true := by
  simp only [iotxMcCheckTopicFilter, Bool.and_eq_true] at h
  obtain ⟨-, hm⟩ := h
  split at hm
  · cases hm
  · next tok toks htoks =>
    rw [htoks]
    simp only [Bool.and_eq_true] at hm
    rintro t (_ | ⟨_, ht⟩)
    · exact hm.1
    · exact checkRest_checked hm.2 t ht

/-- A level that passes `iotx_mc_check_rule` is well formed. -/
theorem levelOk_of_checkRuleFilter {l : List UInt8} (hs : slash ∉ l) (h : checkRuleFilter l = true) :
    LevelOk l := by
  simp only [checkRuleFilter, List.all_eq_true] at h
  by_cases hlen : l.length = 1
  · obtain ⟨c, rfl⟩ := List.length_eq_one_iff.mp hlen
    by_cases hp : c = plus
    · exact .inl (by rw [hp])
    · by_cases hh : c = hash
      · exact .inr (.inl (by rw [hh]))
      · exact .inr (.inr ⟨hs, by simp [Ne.symm hp], by simp [Ne.symm hh]⟩)
  · -- in a longer level, the rule refuses both wildcards
    have hwild : ∀ c ∈ l, c ≠ plus ∧ c ≠ hash := by
      intro c hc
      have hc' := h c hc
      simp only [hlen, Bool.and_eq_true, Bool.or_eq_true, bne_iff_ne, ne_eq, beq_iff_eq,
        or_false, decide_eq_true_eq] at hc'
      exact hc'.1.1
    exact .inr (.inr ⟨hs, fun hp => (hwild plus hp).1 rfl, fun hh => (hwild hash hh).2 rfl⟩)

/-- The levels of an accepted filter of at most `127` bytes are well formed. -/
theorem levelOk_of_checkTopicFilter {f : List UInt8} (h : iotxMcCheckTopicFilter f = true)
    (hlen : f.length < iotxMcTopicNameMaxLen) : ∀ l ∈ f.splitOn slash, LevelOk l := by
  have htake : f.take (iotxMcTopicNameMaxLen - 1) = f :=
    List.take_of_length_le (by unfold iotxMcTopicNameMaxLen at hlen ⊢; omega)
  have htoks := tokens_checked h
  rw [htake] at htoks
  intro l hl
  have hs := not_mem_of_mem_splitOn slash l hl
  by_cases hnil : l = []
  · subst hnil
    exact .inr (.inr ⟨hs, by simp, by simp⟩)
  · exact levelOk_of_checkRuleFilter hs (htoks l (List.mem_filter.mpr ⟨hl, by simpa using hnil⟩))

/-- For a filter `iotx_mc_check_topic` accepts, of at most `127` bytes, a name the walk
matches is a name the rule matches. -/
theorem checkTopicFilter_sound {f t : List UInt8} (hacc : iotxMcCheckTopicFilter f = true)
    (hlen : f.length < iotxMcTopicNameMaxLen) (h : iotxMcIsTopicMatched f t = true) :
    topicMatches f t = true :=
  isTopicMatched_sound (levelOk_of_checkTopicFilter hacc hlen) h

/-- The filter `/a/+` and the name `/a/b`. -/
theorem checkTopicFilter_sound_plus : topicMatches [slash, 97, slash, plus] [slash, 97, slash, 98] = true :=
  checkTopicFilter_sound (by decide) (by decide) (by decide)

/-! ## Where the walk and the rule part -/

/-- `/a/#`, whose `#` matches its parent level `/a`. -/
def filterHashParent : List UInt8 := [slash, 97, slash, hash]
def nameParent : List UInt8 := [slash, 97]

/-- `/+/b`, whose `+` matches the empty level of `//b`. -/
def filterPlusEmpty : List UInt8 := [slash, plus, slash, 98]
def nameEmptyLevel : List UInt8 := [slash, slash, 98]

/-- A filter of 128 bytes: `/`, `a` 126 times, and a `+` that the copy `strncpy` makes for
the check leaves out. -/
def filterLongPlus : List UInt8 := slash :: List.replicate 126 97 ++ [plus]
def nameLong : List UInt8 := slash :: List.replicate 126 97 ++ [122, 122, 122]

/-- Three filters that `iotx_mc_check_topic` accepts: on two of them the walk misses a
name that the rule matches, and on the third it matches a name that the rule rejects. -/
theorem iotxMcIsTopicMatched_disagrees :
    (iotxMcCheckTopicFilter filterHashParent = true ∧ topicMatches filterHashParent nameParent = true ∧
        iotxMcIsTopicMatched filterHashParent nameParent = false) ∧
      (iotxMcCheckTopicFilter filterPlusEmpty = true ∧
        topicMatches filterPlusEmpty nameEmptyLevel = true ∧
        iotxMcIsTopicMatched filterPlusEmpty nameEmptyLevel = false) ∧
      (iotxMcCheckTopicFilter filterLongPlus = true ∧ topicMatches filterLongPlus nameLong = false ∧
        iotxMcIsTopicMatched filterLongPlus nameLong = true) := by
  refine ⟨by decide, by decide, ?_⟩
  -- 128 bytes are too many for the elaborator's evaluation; the kernel's is enough
  decide +kernel

end Mqtt
