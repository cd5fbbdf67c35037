import AliosThings.Mqtt.Topic

/-!
# `iotx_mc_check_topic` for names and filters

`iotx_mc_subscribe`, `iotx_mc_unsubscribe` and `iotx_mc_publish` check their topic with
`iotx_mc_check_topic`, as a filter (`TOPIC_FILTER_TYPE`) or as a name
(`TOPIC_NAME_TYPE`). It tests the leading `/` and the length on the string itself, then
splits a copy of at most `127` bytes with `strtok` and gives each token to
`iotx_mc_check_rule`; the first token is checked before the loop. `topicSyntaxOk`
states the syntax the client relies on.

For a name of at most `127` bytes the check is exactly that syntax. A topic of `128`
bytes passes the length test but its last byte is not in the copy, so nothing checks
it, for names and filters alike. And a `#` in the first level of a filter never sets
`mask`, so levels may follow it.
-/

namespace Mqtt

/-- `iotx_mc_topic_type_t`. -/
inductive TopicType where
  | name
  | filter
  deriving DecidableEq, Repr

/-- The byte test of `iotx_mc_check_rule`. A byte of `128` or more fails it whether
`char` is signed (it is below `32`) or not (it is `127` or more). -/
def printable (c : UInt8) : Bool :=
  32 ≤ c.toNat && c.toNat < 127

/-- `iotx_mc_check_rule(iterm, type)`: under `TOPIC_FILTER_TYPE` a `+` or `#` only in a
token of one byte, under `TOPIC_NAME_TYPE` none; and printable bytes. -/
def iotxMcCheckRule (type : TopicType) (iterm : List UInt8) : Bool :=
  iterm.all fun c =>
    (match type with
      | .filter => (c != plus && c != hash) || iterm.length == 1
      | .name => c != plus && c != hash) && printable c

/-- The loop of `iotx_mc_check_topic` after the first token: a token that starts with
`#` sets `mask`, and no token may follow it. -/
def checkRestType (type : TopicType) : Bool → List (List UInt8) → Bool
  | _, [] => true
  | mask, tok :: toks =>
    !mask && iotxMcCheckRule type tok && checkRestType type (tok.head? == some hash) toks

/-- `iotx_mc_check_topic(topicName, type) == SUCCESS_RETURN`. The tokens are those of the
copy `strncpy` makes into `topicString`, at most `IOTX_MC_TOPIC_NAME_MAX_LEN - 1` bytes;
no token at all is the `NULL` that `iotx_mc_check_rule` refuses. -/
def iotxMcCheckTopic (type : TopicType) (topicName : List UInt8) : Bool :=
  topicName.head? == some slash && topicName.length ≤ iotxMcTopicNameMaxLen &&
    match strtokTokens (topicName.take (iotxMcTopicNameMaxLen - 1)) with
    | [] => false
    | tok :: toks => iotxMcCheckRule type tok && checkRestType type false toks

/-! ### The filter check of `Topic` -/

theorem iotxMcCheckRule_filter : iotxMcCheckRule .filter = checkRuleFilter := by
  funext iterm
  simp only [iotxMcCheckRule, checkRuleFilter, printable, Bool.and_assoc]

theorem checkRestType_filter : checkRestType .filter = checkRest := by
  funext mask toks
  induction toks generalizing mask with
  | nil => rfl
  | cons tok toks ih => simp only [checkRestType, checkRest, iotxMcCheckRule_filter, ih]

theorem iotxMcCheckTopic_filter : iotxMcCheckTopic .filter = iotxMcCheckTopicFilter := by
  funext topicName
  -- both checks match on the same tokens
  cases htok : strtokTokens (topicName.take (iotxMcTopicNameMaxLen - 1)) with
  | nil => simp only [iotxMcCheckTopic, iotxMcCheckTopicFilter, htok]
  | cons tok toks =>
    simp only [iotxMcCheckTopic, iotxMcCheckTopicFilter, htok, iotxMcCheckRule_filter, checkRestType_filter]

/-! ### The syntax -/

/-- The syntax of a topic the client relies on: a leading `/`, at most
`IOTX_MC_TOPIC_NAME_MAX_LEN` bytes, a non-empty level, printable bytes. A name holds no
wildcard; in a filter a wildcard is a whole level and `#` is the last non-empty level. -/
def topicSyntaxOk (type : TopicType) (s : List UInt8) : Bool :=
  let levels := (s.splitOn slash).filter (· ≠ [])
  s.head? == some slash && s.length ≤ iotxMcTopicNameMaxLen && !levels.isEmpty && s.all printable &&
    match type with
    | .name => !s.contains plus && !s.contains hash
    | .filter =>
      levels.all (fun l => (!l.contains plus && !l.contains hash) || l == [plus] || l == [hash]) &&
        levels.dropLast.all (· != [hash])

/-! ### The levels of a split -/

section SplitOn

variable {α : Type*} [BEq α] [LawfulBEq α] (a : α)

omit [LawfulBEq α] in
/-- A byte of a level is a byte of the string. -/
theorem mem_of_mem_splitOn {c : α} : ∀ {xs : List α}, ∀ l ∈ xs.splitOn a, c ∈ l → c ∈ xs := by
  intro xs
  induction xs with
  | nil => simp [List.splitOn_nil]
  | cons x xs ih =>
    intro l hl hc
    rw [List.splitOn_cons_eq_if_modifyHead] at hl
    split at hl
    · rcases List.mem_cons.mp hl with rfl | hl
      · cases hc
      · exact List.mem_cons_of_mem x (ih l hl hc)
    · -- `x` joins the first level of the rest
      obtain ⟨l₀, ls, hsplit⟩ := List.exists_cons_of_ne_nil (List.splitOn_ne_nil a xs)
      rw [hsplit, List.modifyHead_cons] at hl
      rcases List.mem_cons.mp hl with rfl | hl
      · rcases List.mem_cons.mp hc with rfl | hc
        · exact List.mem_cons_self
        · exact List.mem_cons_of_mem x (ih l₀ (by simp [hsplit]) hc)
      · exact List.mem_cons_of_mem x (ih l (by simp [hsplit, hl]) hc)

/-- A byte of the string other than the separator is a byte of a level. -/
theorem exists_mem_splitOn {c : α} (hc : c ≠ a) : ∀ {xs : List α}, c ∈ xs → ∃ l ∈ xs.splitOn a, c ∈ l := by
  intro xs
  induction xs with
  | nil => intro h; cases h
  | cons x xs ih =>
    intro h
    rw [List.splitOn_cons_eq_if_modifyHead]
    obtain ⟨l₀, ls, hsplit⟩ := List.exists_cons_of_ne_nil (List.splitOn_ne_nil a xs)
    split
    · next hx =>
      -- `x` is the separator, so `c` is in the rest
      have hcx : c ∈ xs := by
        rcases List.mem_cons.mp h with rfl | h
        · exact absurd (beq_iff_eq.mp hx) hc
        · exact h
      obtain ⟨l, hl, hcl⟩ := ih hcx
      exact ⟨l, List.mem_cons_of_mem _ hl, hcl⟩
    · rw [hsplit, List.modifyHead_cons]
      rcases List.mem_cons.mp h with rfl | h
      · exact ⟨c :: l₀, List.mem_cons_self, List.mem_cons_self⟩
      · obtain ⟨l, hl, hcl⟩ := ih h
        rw [hsplit] at hl
        rcases List.mem_cons.mp hl with rfl | hl
        · exact ⟨x :: l, List.mem_cons_self, List.mem_cons_of_mem x hcl⟩
        · exact ⟨l, List.mem_cons_of_mem _ hl, hcl⟩

/-- A test the separator passes holds of every byte of the non-empty levels exactly when
it holds of every byte of the string. -/
theorem all_splitOn_filter {P : α → Bool} (ha : P a = true) (xs : List α) :
    ((xs.splitOn a).filter (· ≠ [])).all (fun l => l.all P) = xs.all P := by
  apply Bool.eq_iff_iff.mpr
  simp only [List.all_eq_true, List.mem_filter, decide_eq_true_eq]
  constructor
  · intro h c hc
    by_cases hca : c = a
    · rw [hca]
      exact ha
    · obtain ⟨l, hl, hcl⟩ := exists_mem_splitOn a hca hc
      exact h l ⟨hl, List.ne_nil_of_mem hcl⟩ c hcl
  · rintro h l ⟨hl, -⟩ c hcl
    exact h c (mem_of_mem_splitOn a l hl hcl)

end SplitOn

/-! ### Names of at most `127` bytes -/

/-- The test `iotx_mc_check_rule` makes of each byte of a name. -/
def nameByteOk (c : UInt8) : Bool :=
  c != plus && c != hash && printable c

theorem iotxMcCheckRule_name (tok : List UInt8) : iotxMcCheckRule .name tok = tok.all nameByteOk :=
  rfl

theorem all_nameByteOk (s : List UInt8) :
    s.all nameByteOk = (s.all printable && !s.contains plus && !s.contains hash) := by
  apply Bool.eq_iff_iff.mpr
  simp only [List.all_eq_true, nameByteOk, Bool.and_eq_true, bne_iff_ne, Bool.not_eq_true',
    ← Bool.not_eq_true, List.contains_iff_mem, ne_eq]
  constructor
  · intro h
    exact ⟨⟨fun c hc => (h c hc).2, fun hp => (h plus hp).1.1 rfl⟩, fun hh => (h hash hh).1.2 rfl⟩
  · rintro ⟨⟨hpr, hp⟩, hh⟩ c hc
    exact ⟨⟨fun h => hp (h ▸ hc), fun h => hh (h ▸ hc)⟩, hpr c hc⟩

/-- A name token that passes cannot start with `#`, so the loop never sets `mask`. -/
theorem checkRestType_name (toks : List (List UInt8)) :
    checkRestType .name false toks = toks.all (iotxMcCheckRule .name) := by
  induction toks with
  | nil => rfl
  | cons tok toks ih =>
    simp only [checkRestType, Bool.not_false, Bool.true_and, List.all_cons]
    cases htok : iotxMcCheckRule .name tok with
    | false => rfl
    | true =>
      have hhead : (tok.head? == some hash) = false := by
        cases tok with
        | nil => rfl
        | cons c cs =>
          simp only [iotxMcCheckRule_name, nameByteOk, List.all_cons, Bool.and_eq_true, bne_iff_ne] at htok
          simpa using htok.1.1.2
      rw [hhead, ih, Bool.true_and]

/-- For a name of at most `127` bytes, `iotx_mc_check_topic` accepts exactly the
syntax. -/
theorem iotxMcCheckTopic_name_eq {s : List UInt8} (hlen : s.length < iotxMcTopicNameMaxLen) :
    iotxMcCheckTopic .name s = topicSyntaxOk .name s := by
  have htake : s.take (iotxMcTopicNameMaxLen - 1) = s :=
    List.take_of_length_le (by unfold iotxMcTopicNameMaxLen at hlen ⊢; omega)
  have hsep : nameByteOk slash = true := by decide
  -- the tokens all pass exactly when every byte does
  have hall : (strtokTokens s).all (iotxMcCheckRule .name) = s.all nameByteOk := by
    rw [← all_splitOn_filter slash hsep s]
    rfl
  unfold iotxMcCheckTopic topicSyntaxOk
  rw [htake]
  -- no token is the `NULL` the first check refuses; otherwise every token is checked
  have hmatch : (match strtokTokens s with
      | [] => false
      | tok :: toks => iotxMcCheckRule .name tok && checkRestType .name false toks) =
      (!(strtokTokens s).isEmpty && (strtokTokens s).all (iotxMcCheckRule .name)) := by
    cases strtokTokens s with
    | nil => rfl
    | cons tok toks => simp [checkRestType_name]
  rw [hmatch, hall, all_nameByteOk]
  simp only [strtokTokens, Bool.and_assoc]

/-! ### The last byte of `128` -/

/-- A topic of `127` bytes and one more byte: the copy for `strtok` leaves that byte out,
so the check is the check of the `127` bytes. -/
theorem iotxMcCheckTopic_append_last (type : TopicType) {s : List UInt8} (c : UInt8)
    (hs : s.length = iotxMcTopicNameMaxLen - 1) :
    iotxMcCheckTopic type (s ++ [c]) = iotxMcCheckTopic type s := by
  have hne : s ≠ [] := by
    rintro rfl
    simp [iotxMcTopicNameMaxLen] at hs
  have hlen : (s ++ [c]).length ≤ iotxMcTopicNameMaxLen := by
    rw [List.length_append, hs]
    simp [iotxMcTopicNameMaxLen]
  have hlen' : s.length ≤ iotxMcTopicNameMaxLen := by
    rw [hs]
    decide
  unfold iotxMcCheckTopic
  rw [List.head?_append_of_ne_nil _ hne, List.take_left' hs, List.take_of_length_le (le_of_eq hs),
    decide_eq_true hlen, decide_eq_true hlen']

/-! ### Topics the check accepts against the syntax -/

/-- A name of `128` bytes: `/`, `a` 126 times, and a `#` that no check reads. -/
def nameLongHash : List UInt8 := slash :: List.replicate 126 97 ++ [hash]

/-- `/#/a`, a filter with levels after its `#`. -/
def filterHashFirst : List UInt8 := [slash, hash, slash, 97]

theorem nameLong_syntaxOk : topicSyntaxOk .name (slash :: List.replicate 126 97) = true := by
  have hsplit : (slash :: List.replicate 126 97).splitOn slash = [[], List.replicate 126 97] := by
    rw [List.splitOn_cons_eq_if_modifyHead, if_pos (beq_self_eq_true slash),
      List.splitOn_eq_singleton (by simp; decide)]
  unfold topicSyntaxOk
  rw [hsplit]
  simp [printable, iotxMcTopicNameMaxLen]
  decide

theorem iotxMcCheckTopic_accepts_bad_syntax :
    (∀ (type : TopicType) (s : List UInt8) (c : UInt8), s.length = iotxMcTopicNameMaxLen - 1 →
      iotxMcCheckTopic type (s ++ [c]) = iotxMcCheckTopic type s) ∧
      (iotxMcCheckTopic .name nameLongHash = true ∧ topicSyntaxOk .name nameLongHash = false) ∧
      (iotxMcCheckTopic .filter filterHashFirst = true ∧ topicSyntaxOk .filter filterHashFirst = false) := by
  refine ⟨fun type s c hs => iotxMcCheckTopic_append_last type c hs, ⟨?_, ?_⟩, by decide, by decide⟩
  · -- the check reads the first `127` bytes, a well-formed name
    rw [nameLongHash, iotxMcCheckTopic_append_last .name hash (by simp [iotxMcTopicNameMaxLen]),
      iotxMcCheckTopic_name_eq (by simp [iotxMcTopicNameMaxLen]), nameLong_syntaxOk]
  · simp [topicSyntaxOk, nameLongHash]

theorem iotxMcCheckTopic_accepts_bad_syntax_name :
    iotxMcCheckTopic .name nameLongHash = iotxMcCheckTopic .name (slash :: List.replicate 126 97) :=
  iotxMcCheckTopic_accepts_bad_syntax.1 .name _ hash (by simp [iotxMcTopicNameMaxLen])

end Mqtt
