import VllmDcu.GrammarBitmask
import Mathlib.Algebra.Order.BigOperators.Group.List
import Mathlib.Algebra.Order.Ring.Nat

/-! Every logits row gets the mask of its own request and position. -/
namespace VllmDcu.GrammarMasks
open Requests (Token ReqId)
open StructuredOutput StructuredOutputGrammar GrammarBitmask List Option Dict

variable {Grammar : Type} [StructuredOutputGrammar Grammar]

/-! What a grammar allows after some tokens. -/

/-- A terminated grammar stays, any other one has to accept the token. -/
def advance (grammar : Grammar) (token : Token) : Option Grammar :=
  if (isTerminated grammar).1 then some grammar
  else if (acceptTokens grammar [token]).1 then some (acceptTokens grammar [token]).2
  else none

def grammarAfter (grammar : Grammar) : List Token → Option Grammar
  | [] => some grammar
  | token :: rest => (advance grammar token).bind fun next => grammarAfter next rest

/-- The allowed tokens. A terminated grammar constrains nothing. -/
def allowedRow (grammar : Grammar) : Row :=
  if (isTerminated grammar).1 then fullMask else fillBitmask grammar

/-- The draft tokens before the padding. -/
def realDrafts (drafts : List Token) : List Token := drafts.takeWhile fun token => token != -1

/-- The row of a position of a request. -/
def rowAt (applyBitmask : Bool) (grammar : Grammar) (drafts : List Token) (p : Nat) : Row :=
  if applyBitmask = true ∧ p ≤ (realDrafts drafts).length then
    ((grammarAfter grammar (drafts.take p)).map allowedRow).getD fullMask
  else fullMask

def rowsOf (applyBitmask : Bool) (grammar : Grammar) (drafts : List Token) : List Row :=
  (List.range (drafts.length + 1)).map (rowAt applyBitmask grammar drafts)

/-- Asking a grammar whether it is terminated leaves it as it is, before and after every
draft token. -/
def Steady (grammar : Grammar) (drafts : List Token) : Prop :=
  ∀ (p : Nat) (next : Grammar), grammarAfter grammar ((realDrafts drafts).take p) = some next →
    (isTerminated next).2 = next

def Accepted (grammar : Grammar) (drafts : List Token) : Prop :=
  (grammarAfter grammar (realDrafts drafts)).isSome

/-- The tokens are accepted one by one, none by a terminated grammar. -/
def acceptAll (grammar : Grammar) : List Token → Option Grammar
  | [] => some grammar
  | token :: rest =>
    if (isTerminated grammar).1 then none
    else if (acceptTokens grammar [token]).1 then acceptAll (acceptTokens grammar [token]).2 rest
    else none

def RollsBack (limit : Nat) (grammar : Grammar) : Prop :=
  ∀ (tokens : List Token) (next : Grammar), acceptAll grammar tokens = some next →
    0 < tokens.length → tokens.length ≤ limit → rollback next tokens.length = some grammar

/-- The grammar library as a deterministic matcher: validated tokens are accepted and leave
the grammar as it was, accepted tokens can be rolled back. -/
structure LawfulGrammar (limit : Nat) (grammar : Grammar) : Prop where
  validates : ∀ tokens valid next, validateTokens grammar tokens = some (valid, next) →
    next = grammar ∧ (grammarAfter grammar valid).isSome
  rollsBack : RollsBack limit grammar

variable (grammar : Grammar)

theorem grammarAfter_append (first second : List Token) :
    grammarAfter grammar (first ++ second) =
      (grammarAfter grammar first).bind fun next => grammarAfter next second := by
  induction first generalizing grammar with
  | nil => rfl
  | cons token rest ih =>
    rw [cons_append, grammarAfter, grammarAfter]
    cases advance grammar token with
    | none => rfl
    | some next => exact ih next

theorem grammarAfter_prefix {first second : List Token}
    (accepted : (grammarAfter grammar (first ++ second)).isSome) :
    (grammarAfter grammar first).isSome := by
  rw [grammarAfter_append] at accepted
  cases reached : grammarAfter grammar first with
  | none =>
    rw [reached] at accepted
    exact accepted
  | some next => rfl

/-! Rows written into the bitmask. -/

def writeAt (bitmask : List Row) (index : Nat) : List Row → List Row
  | [] => bitmask
  | row :: rest => writeAt (bitmask.set index row) (index + 1) rest

variable (bitmask : List Row) (index : Nat)

@[simp] theorem writeAt_length (rows : List Row) :
    (writeAt bitmask index rows).length = bitmask.length := by
  induction rows generalizing bitmask index with
  | nil => rfl
  | cons row rest ih => rw [writeAt, ih, length_set]

theorem writeAt_append (first second : List Row) :
    writeAt bitmask index (first ++ second) =
      writeAt (writeAt bitmask index first) (index + first.length) second := by
  induction first generalizing bitmask index with
  | nil => rfl
  | cons row rest ih =>
    rw [cons_append, writeAt, ih, length_cons]
    congr 1
    omega

theorem writeAt_get (rows : List Row) (i : Nat) (room : index + rows.length ≤ bitmask.length) :
    (writeAt bitmask index rows)[i]? =
      if index ≤ i ∧ i < index + rows.length then rows[i - index]? else bitmask[i]? := by
  induction rows generalizing bitmask index with
  | nil =>
    rw [if_neg (by rw [length_nil]; omega)]
    rfl
  | cons row rest ih =>
    rw [length_cons] at room ⊢
    rw [writeAt, ih _ _ (by rw [length_set]; omega)]
    by_cases here : i = index
    · subst here
      rw [if_neg (by omega), if_pos (by omega), getElem?_set_self (by omega),
        Nat.sub_self, getElem?_cons_zero]
    · rw [getElem?_set_ne (Ne.symm here)]
      by_cases inside : index ≤ i ∧ i < index + (rest.length + 1)
      · have later : i - index = i - (index + 1) + 1 := by omega
        rw [if_pos (by omega), if_pos inside, later, getElem?_cons_succ]
      · rw [if_neg (by omega), if_neg inside]

/-! The rows of one request. -/

omit [StructuredOutputGrammar Grammar] in
theorem realDrafts_cons {token : Token} {rest : List Token} (real : token ≠ -1) :
    realDrafts (token :: rest) = token :: realDrafts rest := by
  rw [realDrafts, takeWhile_cons, if_pos (by simpa using real)]
  rfl

variable (drafts : List Token)

theorem rowAt_zero : rowAt true grammar drafts 0 = allowedRow grammar := by
  rfl

theorem rowAt_succ (next : Grammar) (token : Token) (rest : List Token) (real : token ≠ -1)
    (advanced : advance grammar token = some next) (p : Nat) :
    rowAt true grammar (token :: rest) (p + 1) = rowAt true next rest p := by
  rw [rowAt, rowAt, realDrafts_cons real, length_cons, take_succ_cons,
    grammarAfter, advanced, bind_some]
  simp only [Nat.add_le_add_iff_right]

theorem rowsOf_cons (next : Grammar) (token : Token) (rest : List Token) (real : token ≠ -1)
    (advanced : advance grammar token = some next) :
    rowsOf true grammar (token :: rest) = allowedRow grammar :: rowsOf true next rest := by
  rw [rowsOf, range_succ_eq_map, map_cons, List.map_map]
  congr 1
  apply map_congr_left
  intro p _
  exact rowAt_succ grammar next token rest real advanced p

theorem rowsOf_padding (rest : List Token) :
    rowsOf true grammar (-1 :: rest) =
      allowedRow grammar :: List.replicate (rest.length + 1) fullMask := by
  rw [rowsOf, length_cons, range_succ_eq_map, map_cons, List.map_map]
  congr 1
  rw [eq_replicate_iff]
  constructor
  · rw [length_map, length_range]
  · intro row member
    obtain ⟨p, _, rfl⟩ := List.mem_map.mp member
    have beyond : ¬ (true = true ∧ p + 1 ≤ (realDrafts (-1 :: rest)).length) := by
      rintro ⟨_, below⟩
      exact Nat.not_succ_le_zero _ below
    change rowAt true grammar (-1 :: rest) (p + 1) = fullMask
    rw [rowAt, if_neg beyond]

theorem rowsOf_off : rowsOf false grammar drafts = List.replicate (drafts.length + 1) fullMask := by
  rw [rowsOf, eq_replicate_iff]
  constructor
  · rw [length_map, length_range]
  · intro row member
    obtain ⟨p, _, rfl⟩ := List.mem_map.mp member
    apply if_neg
    rintro ⟨on, _⟩
    cases on

@[simp] theorem rowsOf_length (applyBitmask : Bool) (grammar : Grammar) (drafts : List Token) :
    (rowsOf applyBitmask grammar drafts).length = drafts.length + 1 := by
  rw [rowsOf, length_map, length_range]

/-- Without a bitmask to apply, all rows are full. -/
theorem fillTokens_off (tokens : List Token) (bitmask : List Row) (grammar : Grammar)
    (index advancements : Nat) (room : index + tokens.length ≤ bitmask.length) :
    fillTokens ⟨bitmask, grammar, index, false, advancements⟩ tokens =
      some ⟨writeAt bitmask index (List.replicate tokens.length fullMask), grammar,
        index + tokens.length, false, advancements⟩ := by
  induction tokens generalizing bitmask index with
  | nil => rfl
  | cons token rest ih =>
    rw [length_cons] at room ⊢
    have step : fillToken ⟨bitmask, grammar, index, false, advancements⟩ token =
        some ⟨bitmask.set index fullMask, grammar, index + 1, false, advancements⟩ := by
      rw [fillToken, fillEntry, if_pos (show index < bitmask.length by omega)]
      simp [applies]
    simp only [fillTokens, step]
    rw [ih _ _ (by rw [length_set]; omega), replicate_succ, writeAt]
    simp only [some.injEq, Filling.mk.injEq, true_and, and_true]
    omega

/-- The rows of a request whose drafts are accepted. -/
theorem fillTokens_on (bitmask : List Row) (grammar : Grammar) (index advancements : Nat)
    (steady : Steady grammar drafts) (accepted : Accepted grammar drafts)
    (room : index + (drafts.length + 1) ≤ bitmask.length) :
    ∃ used next, acceptAll grammar used = some next ∧ used.length ≤ drafts.length ∧
      fillTokens ⟨bitmask, grammar, index, true, advancements⟩ (drafts ++ [-1]) =
        some ⟨writeAt bitmask index (rowsOf true grammar drafts), next,
          index + (drafts.length + 1), false, advancements + used.length⟩ := by
  induction drafts generalizing bitmask grammar index advancements with
  | nil =>
    have quiet : (isTerminated grammar).2 = grammar := steady 0 grammar rfl
    refine ⟨[], grammar, rfl, Nat.le_refl 0, ?_⟩
    have step : fillToken ⟨bitmask, grammar, index, true, advancements⟩ (-1) =
        some ⟨bitmask.set index (allowedRow grammar), grammar, index + 1, false, advancements⟩ := by
      rw [fillToken, fillEntry, if_pos (show index < bitmask.length by omega), allowedRow]
      simp only [applies, if_true, quiet]
      cases (isTerminated grammar).1 with
      | true => rfl
      | false => rfl
    simp only [nil_append, fillTokens, step]
    rw [rowsOf]
    simp only [length_nil, Nat.zero_add, range_one, map_cons, map_nil,
      rowAt_zero, writeAt, Nat.add_zero]
  | cons token rest ih =>
    have quiet : (isTerminated grammar).2 = grammar := steady 0 grammar rfl
    rw [length_cons] at room
    by_cases real : token = -1
    · -- The padding starts: all further rows are full.
      refine ⟨[], grammar, rfl, Nat.zero_le _, ?_⟩
      subst real
      have step : fillToken ⟨bitmask, grammar, index, true, advancements⟩ (-1) =
          some ⟨bitmask.set index (allowedRow grammar), grammar, index + 1, false,
            advancements⟩ := by
        rw [fillToken, fillEntry, if_pos (show index < bitmask.length by omega), allowedRow]
        simp only [applies, if_true, quiet]
        cases (isTerminated grammar).1 with
        | true => rfl
        | false => rfl
      simp only [cons_append, fillTokens, step]
      rw [fillTokens_off _ _ _ _ _ (by
        rw [length_append, length_set]
        simp only [length_cons, length_nil]
        omega), rowsOf_padding, writeAt, length_append]
      simp only [length_cons, length_nil, Nat.zero_add, some.injEq,
        Filling.mk.injEq, true_and, Nat.add_zero, and_true]
      omega
    · have whole : ∀ p next, grammarAfter grammar ((token :: realDrafts rest).take p) =
          some next → (isTerminated next).2 = next := by
        rw [← realDrafts_cons real]
        exact steady
      rw [Accepted, realDrafts_cons real, grammarAfter] at accepted
      cases advanced : advance grammar token with
      | none =>
        rw [advanced] at accepted
        cases accepted
      | some next =>
        rw [advanced, bind_some] at accepted
        have steadyNext : Steady next rest := by
          intro p later reached
          apply whole (p + 1) later
          rw [take_succ_cons, grammarAfter, advanced]
          exact reached
        rw [rowsOf_cons grammar next token rest real advanced, writeAt]
        rw [advance] at advanced
        by_cases terminated : (isTerminated grammar).1 = true
        · rw [if_pos terminated] at advanced
          obtain rfl := some.inj advanced
          have step : fillToken ⟨bitmask, grammar, index, true, advancements⟩ token =
              some ⟨bitmask.set index (allowedRow grammar), grammar, index + 1, true,
                advancements⟩ := by
            rw [fillToken, fillEntry, if_pos (show index < bitmask.length by omega), allowedRow]
            simp [applies, quiet, terminated, real]
          obtain ⟨used, last, all, few, done⟩ := ih (bitmask.set index (allowedRow grammar))
            grammar (index + 1) advancements steadyNext accepted
            (by rw [length_set]; omega)
          refine ⟨used, last, all, Nat.le_succ_of_le few, ?_⟩
          simp only [cons_append, fillTokens, step, done, some.injEq,
            Filling.mk.injEq, true_and, length_cons, and_true]
          omega
        · rw [if_neg terminated] at advanced
          by_cases takes : (acceptTokens grammar [token]).1 = true
          · rw [if_pos takes] at advanced
            obtain rfl := some.inj advanced
            have step : fillToken ⟨bitmask, grammar, index, true, advancements⟩ token =
                some ⟨bitmask.set index (allowedRow grammar),
                  (acceptTokens grammar [token]).2, index + 1, true, advancements + 1⟩ := by
              rw [fillToken, fillEntry, if_pos (show index < bitmask.length by omega), allowedRow]
              simp [applies, quiet, terminated, real, takes]
            obtain ⟨used, last, all, few, done⟩ := ih
              (bitmask.set index (allowedRow grammar)) _ (index + 1) (advancements + 1)
              steadyNext accepted (by rw [length_set]; omega)
            refine ⟨token :: used, last, ?_, Nat.succ_le_succ few, ?_⟩
            · rw [acceptAll, if_neg terminated, if_pos takes]
              exact all
            · simp only [cons_append, fillTokens, step, done, some.injEq,
                Filling.mk.injEq, true_and, length_cons]
              omega
          · rw [if_neg takes] at advanced
            cases advanced

/-- The rows of one request, with its grammar rolled back. -/
theorem fillRequest_rows {grammar : Grammar} (index : Nat) {applyBitmask : Bool}
    {drafts : List Token} {limit : Nat} (few : drafts.length ≤ limit)
    (room : index + (drafts.length + 1) ≤ bitmask.length)
    (ready : applyBitmask = true →
      Steady grammar drafts ∧ Accepted grammar drafts ∧ RollsBack limit grammar) :
    fillRequest bitmask grammar index applyBitmask drafts =
      some (writeAt bitmask index (rowsOf applyBitmask grammar drafts), grammar,
        index + (drafts.length + 1)) := by
  rw [fillRequest]
  cases applyBitmask with
  | false =>
    rw [fillTokens_off _ _ _ _ _ (by
      rw [length_append]
      exact room), rowsOf_off, length_append]
    rfl
  | true =>
    obtain ⟨steady, accepted, rolls⟩ := ready rfl
    obtain ⟨used, next, all, less, done⟩ := fillTokens_on drafts bitmask grammar index 0 steady
      accepted room
    rw [done, Nat.zero_add]
    by_cases some : used.length > 0
    · simp only [if_pos some]
      rw [rolls used next all some (less.trans few)]
      rfl
    · have nothing : used = [] := length_eq_zero_iff.mp (by omega)
      subst nothing
      obtain rfl := Option.some.inj all
      rfl

/-! All requests of a step. -/

/-- A request after the scheduler has asked for its mask: the grammar is the same. -/
def settled (config : ManagerConfig) (request : Request Grammar) : Request Grammar :=
  match request.structuredOutputRequest with
  | none => request
  | some structured =>
    { request with structuredOutputRequest := some (shouldFillBitmask config request structured).2 }

variable (config : ManagerConfig)

omit [StructuredOutputGrammar Grammar] in
theorem shouldFillBitmask_grammar {request : Request Grammar}
    {structured : StructuredOutputRequest Grammar} :
    (shouldFillBitmask config request structured).2.grammar = structured.grammar := by
  rw [shouldFillBitmask]
  cases config.reasoner with
  | none => rfl
  | some reasoner =>
    simp only
    split
    · rfl
    · cases structured.reasoningEnded with
      | none => rfl
      | some ended => rfl

/-- The rows that a request has in the bitmask. -/
def rowsFor (config : ManagerConfig) (requests : Requests Grammar)
    (scheduled : Dict ReqId (List Token)) (reqId : ReqId) : List Row :=
  match requests.get? reqId with
  | none => []
  | some request =>
    match request.structuredOutputRequest with
    | none => []
    | some structured =>
      rowsOf (shouldFillBitmask config request structured).1 structured.grammar
        (draftsOf scheduled reqId)

/-- A request whose rows can be filled. -/
def Ready (config : ManagerConfig) (requests : Requests Grammar)
    (scheduled : Dict ReqId (List Token)) (reqId : ReqId) : Prop :=
  ∃ request structured, requests.get? reqId = some request ∧
    request.structuredOutputRequest = some structured ∧
    (draftsOf scheduled reqId).length ≤ config.numSpeculativeTokens ∧
    ((shouldFillBitmask config request structured).1 = true →
      Steady structured.grammar (draftsOf scheduled reqId) ∧
      Accepted structured.grammar (draftsOf scheduled reqId) ∧
      RollsBack config.numSpeculativeTokens structured.grammar)

/-- The requests of the step are settled, all others kept. -/
def Settles (config : ManagerConfig) (reqIds : List ReqId) (requests requests' : Requests Grammar) :
    Prop :=
  ∀ reqId, requests'.get? reqId =
    if reqId ∈ reqIds then (requests.get? reqId).map (settled config) else requests.get? reqId

variable (requests : Requests Grammar)

theorem rowsFor_congr {requests' : Requests Grammar} {scheduled : Dict ReqId (List Token)}
    {reqId : ReqId} (same : requests'.get? reqId = requests.get? reqId) :
    rowsFor config requests' scheduled reqId = rowsFor config requests scheduled reqId := by
  rw [rowsFor, same, rowsFor]

theorem ready_congr {requests' : Requests Grammar} {scheduled : Dict ReqId (List Token)}
    {reqId : ReqId} (same : requests'.get? reqId = requests.get? reqId)
    (ready : Ready config requests scheduled reqId) : Ready config requests' scheduled reqId := by
  rw [Ready, same]
  exact ready

omit [StructuredOutputGrammar Grammar] in
theorem settles_cons {reqId : ReqId} {rest : List ReqId} (fresh : reqId ∉ rest)
    {requests middle requests' : Requests Grammar}
    (here : ∀ other, middle.get? other =
      if other = reqId then (requests.get? other).map (settled config) else requests.get? other)
    (later : Settles config rest middle requests') :
    Settles config (reqId :: rest) requests requests' := by
  intro other
  rw [later other, here other]
  by_cases same : other = reqId
  · subst same
    rw [if_neg fresh, if_pos rfl, if_pos mem_cons_self]
  · simp only [mem_cons, same, false_or, if_false]

variable (scheduled : Dict ReqId (List Token)) (reqIds : List ReqId)

theorem fillSerial_rows (distinct : reqIds.Nodup) (requests : Requests Grammar) (bitmask : List Row)
    (index : Nat) (ready : ∀ reqId ∈ reqIds, Ready config requests scheduled reqId)
    (room : index + (reqIds.flatMap (rowsFor config requests scheduled)).length ≤ bitmask.length) :
    ∃ requests', fillSerial config scheduled reqIds requests bitmask index =
        some (requests', writeAt bitmask index (reqIds.flatMap (rowsFor config requests scheduled)),
          index + (reqIds.flatMap (rowsFor config requests scheduled)).length) ∧
      Settles config reqIds requests requests' := by
  induction reqIds generalizing requests bitmask index with
  | nil => exact ⟨requests, rfl, fun _ => by simp⟩
  | cons reqId rest ih =>
    rw [nodup_cons] at distinct
    obtain ⟨request, structured, known, uses, few, fills⟩ := ready reqId mem_cons_self
    rw [flatMap_cons, length_append] at room ⊢
    have rows : rowsFor config requests scheduled reqId =
        rowsOf (shouldFillBitmask config request structured).1 structured.grammar
          (draftsOf scheduled reqId) := by
      simp only [rowsFor, known, uses]
    rw [rows, rowsOf_length] at room ⊢
    have filled := fillRequest_rows bitmask index few (by omega) fills
    generalize after : setStructured requests reqId request
      { (shouldFillBitmask config request structured).2 with grammar := structured.grammar } =
        middle
    have others : ∀ other, middle.get? other =
        if other = reqId then (requests.get? other).map (settled config)
        else requests.get? other := by
      intro other
      rw [← after, setStructured, get?_set]
      by_cases same : other = reqId
      · rw [if_pos same, if_pos same, same, known, map_some, settled, uses,
          ← shouldFillBitmask_grammar config]
      · rw [if_neg same, if_neg same]
    have kept : ∀ other ∈ rest, middle.get? other = requests.get? other := by
      intro other member
      have different : other ≠ reqId := by
        rintro rfl
        exact distinct.1 member
      rw [others, if_neg different]
    have tail : rest.flatMap (rowsFor config middle scheduled) =
        rest.flatMap (rowsFor config requests scheduled) := by
      apply flatMap_congr
      intro other member
      exact rowsFor_congr config requests (kept other member)
    obtain ⟨requests', done, settles⟩ := ih distinct.2 middle
      (writeAt bitmask index (rowsOf (shouldFillBitmask config request structured).1
        structured.grammar (draftsOf scheduled reqId)))
      (index + ((draftsOf scheduled reqId).length + 1))
      (fun other member => ready_congr config requests
        (kept other member) (ready other (mem_cons_of_mem _ member)))
      (by rw [tail, writeAt_length]; omega)
    refine ⟨requests', ?_, settles_cons config distinct.1 others settles⟩
    rw [draftsOf] at filled
    simp only [fillSerial, known, uses, shouldFillBitmask_grammar, filled, after]
    rw [draftsOf] at done
    rw [done, tail, writeAt_append, rowsOf_length, draftsOf]
    simp only [some.injEq, Prod.mk.injEq, true_and]
    omega

/-! The parallel path. -/

def setRows (bitmask : List Row) : List (Nat × Row) → List Row
  | [] => bitmask
  | (index, row) :: rest => setRows (bitmask.set index row) rest

theorem setRows_get (entries : List (Nat × Row)) (bitmask : List Row)
    (distinct : (entries.map Prod.fst).Nodup)
    (inside : ∀ entry ∈ entries, entry.1 < bitmask.length) :
    (∀ entry ∈ entries, (setRows bitmask entries)[entry.1]? = some entry.2) ∧
      (∀ i, i ∉ entries.map Prod.fst → (setRows bitmask entries)[i]? = bitmask[i]?) ∧
      (setRows bitmask entries).length = bitmask.length := by
  induction entries generalizing bitmask with
  | nil => exact ⟨fun _ member => (not_mem_nil member).elim, fun _ _ => rfl, rfl⟩
  | cons entry rest ih =>
    obtain ⟨index, row⟩ := entry
    rw [map_cons, nodup_cons] at distinct
    obtain ⟨written, kept, length⟩ := ih (bitmask.set index row) distinct.2 (by
      intro entry member
      rw [length_set]
      exact inside entry (mem_cons_of_mem _ member))
    have room : index < bitmask.length := inside (index, row) mem_cons_self
    rw [setRows]
    refine ⟨?_, ?_, by rw [length, length_set]⟩
    · intro entry member
      cases mem_cons.mp member with
      | inl first =>
        rw [first, kept index distinct.1, getElem?_set_self room]
      | inr later => exact written entry later
    · intro i other
      rw [map_cons, mem_cons, not_or] at other
      rw [kept i other.2, getElem?_set_ne (Ne.symm other.1)]

/-- The row of a request without drafts. -/
def soleRow (config : ManagerConfig) (requests : Requests Grammar) (reqId : ReqId) : Row :=
  match requests.get? reqId with
  | none => fullMask
  | some request =>
    match request.structuredOutputRequest with
    | none => fullMask
    | some structured =>
      if (shouldFillBitmask config request structured).1 then allowedRow structured.grammar
      else fullMask

theorem rowsFor_sole (reqId : ReqId) (ready : Ready config requests scheduled reqId)
    (alone : draftsOf scheduled reqId = []) :
    rowsFor config requests scheduled reqId = [soleRow config requests reqId] := by
  obtain ⟨request, structured, known, uses, _⟩ := ready
  simp only [rowsFor, soleRow, known, uses, alone]
  cases (shouldFillBitmask config request structured).1 with
  | true =>
    rw [rowsOf]
    simp only [length_nil, Nat.zero_add, range_one, map_cons, map_nil, rowAt_zero, if_true]
  | false =>
    rfl

/-- A task knows its request's place and whether its mask applies. -/
structure TaskOf (config : ManagerConfig) (requests : Requests Grammar) (index : Nat)
    (task : FillTask) : Prop where
  index : task.index = index
  applies : ∃ request structured, requests.get? task.reqId = some request ∧
    request.structuredOutputRequest = some structured ∧
    task.applyBitmask = (shouldFillBitmask config request structured).1

theorem collectTasks_tasks (distinct : reqIds.Nodup) (requests : Requests Grammar) (index : Nat)
    (ready : ∀ reqId ∈ reqIds, Ready config requests scheduled reqId) :
    ∃ requests' tasks, collectTasks config reqIds requests index = some (requests', tasks) ∧
      Settles config reqIds requests requests' ∧ tasks.map (·.reqId) = reqIds ∧
      ∀ (i : Nat) (task : FillTask), tasks[i]? = some task →
        TaskOf config requests (index + i) task := by
  induction reqIds generalizing requests index with
  | nil =>
    refine ⟨requests, [], rfl, fun _ => by simp, rfl, ?_⟩
    intro i task found
    cases found
  | cons reqId rest ih =>
    rw [nodup_cons] at distinct
    obtain ⟨request, structured, known, uses, _⟩ := ready reqId mem_cons_self
    generalize after : setStructured requests reqId request
      (shouldFillBitmask config request structured).2 = middle
    have others : ∀ other, middle.get? other =
        if other = reqId then (requests.get? other).map (settled config)
        else requests.get? other := by
      intro other
      rw [← after, setStructured, get?_set]
      by_cases same : other = reqId
      · rw [if_pos same, if_pos same, same, known, map_some, settled, uses]
      · rw [if_neg same, if_neg same]
    have kept : ∀ other ∈ rest, middle.get? other = requests.get? other := by
      intro other member
      have different : other ≠ reqId := by
        rintro rfl
        exact distinct.1 member
      rw [others, if_neg different]
    obtain ⟨requests', tasks, done, settles, ids, places⟩ := ih distinct.2 middle (index + 1)
      fun other member => ready_congr config requests
        (kept other member) (ready other (mem_cons_of_mem _ member))
    refine ⟨requests', ⟨reqId, index, (shouldFillBitmask config request structured).1⟩ :: tasks,
      ?_, settles_cons config distinct.1 others settles, ?_,
      ?_⟩
    · simp only [collectTasks, known, uses, after, done, map_some]
    · rw [map_cons, ids]
    · intro i task found
      cases i with
      | zero =>
        obtain rfl := some.inj found
        exact ⟨rfl, request, structured, known, uses, rfl⟩
      | succ i =>
        obtain ⟨place, request', structured', known', uses', flag⟩ := places i task found
        have member : task.reqId ∈ rest := by
          rw [← ids]
          exact List.mem_map_of_mem (mem_of_getElem? found)
        rw [kept task.reqId member] at known'
        exact ⟨place.trans (by omega), request', structured', known', uses', flag⟩

/-- A task that asks its grammar without changing it, and the row that it fills in. -/
def TaskRow (requests : Requests Grammar) (task : FillTask) (row : Row) : Prop :=
  ∃ request structured, requests.get? task.reqId = some request ∧
    request.structuredOutputRequest = some structured ∧
    (task.applyBitmask = true → (isTerminated structured.grammar).2 = structured.grammar) ∧
    row = if task.applyBitmask = true then allowedRow structured.grammar else fullMask

/-- The tasks in any order. -/
theorem runTasks_rows (tasks : List FillTask) (requests : Requests Grammar) (bitmask : List Row)
    (row : FillTask → Row) (rows : ∀ task ∈ tasks, TaskRow requests task (row task))
    (inside : ∀ task ∈ tasks, task.index < bitmask.length) :
    ∃ requests', runTasks tasks requests bitmask =
        some (requests', setRows bitmask (tasks.map fun task => (task.index, row task))) ∧
      ∀ reqId, requests'.get? reqId = requests.get? reqId := by
  induction tasks generalizing requests bitmask with
  | nil => exact ⟨requests, rfl, fun _ => rfl⟩
  | cons task rest ih =>
    obtain ⟨request, structured, known, uses, quiet, value⟩ := rows task mem_cons_self
    have here : task.index < bitmask.length := inside task mem_cons_self
    have filled : fillEntry bitmask structured.grammar task.index task.applyBitmask =
        some (bitmask.set task.index (row task), structured.grammar) := by
      rw [fillEntry, if_pos here, value]
      cases flag : task.applyBitmask with
      | false => rfl
      | true =>
        simp only [applies, if_true, quiet flag, allowedRow]
        cases (isTerminated structured.grammar).1 with
        | true => rfl
        | false => rfl
    generalize after : setStructured requests task.reqId request structured = middle
    have same : ∀ reqId, middle.get? reqId = requests.get? reqId := by
      intro reqId
      rw [← after, setStructured, get?_set]
      by_cases this : reqId = task.reqId
      · rw [if_pos this, this, known, ← uses]
      · rw [if_neg this]
    obtain ⟨requests', done, kept⟩ := ih middle (bitmask.set task.index (row task))
      (by
        intro other member
        rw [TaskRow, same]
        exact rows other (mem_cons_of_mem _ member))
      (by
        intro other member
        rw [length_set]
        exact inside other (mem_cons_of_mem _ member))
    refine ⟨requests', ?_, fun reqId => (kept reqId).trans (same reqId)⟩
    simp only [runTasks, runTask, known, uses, filled, map_some, after]
    exact done

theorem submitBatches_flatten (batchSize : Nat) (tasks batch : List FillTask) :
    (submitBatches batchSize tasks batch).flatten = batch ++ tasks := by
  induction tasks generalizing batch with
  | nil =>
    rw [submitBatches]
    cases batch with
    | nil => rfl
    | cons task rest => simp
  | cons task rest ih =>
    rw [submitBatches]
    split
    · rw [flatten_cons, ih, nil_append, append_assoc, singleton_append]
    · rw [ih, append_assoc, singleton_append]

/-- Whatever the order of the threads, the rows are those of the serial path. -/
theorem parallel_rows {pool : List (List FillTask) → List FillTask}
    (runs : ∀ batches, (pool batches).Perm batches.flatten) {scheduled : Dict ReqId (List Token)}
    {reqIds : List ReqId} (distinct : reqIds.Nodup) {requests : Requests Grammar}
    {bitmask : List Row} (ready : ∀ reqId ∈ reqIds, Ready config requests scheduled reqId)
    (alone : ∀ reqId ∈ reqIds, draftsOf scheduled reqId = [])
    (room : reqIds.length ≤ bitmask.length) :
    ∃ middle tasks requests', collectTasks config reqIds requests 0 = some (middle, tasks) ∧
      tasks.length = reqIds.length ∧
      runTasks (pool (submitBatches config.fillBitmaskParallelBatchSize tasks [])) middle bitmask =
        some (requests', writeAt bitmask 0 (reqIds.flatMap (rowsFor config requests scheduled))) ∧
      Settles config reqIds requests requests' := by
  obtain ⟨middle, tasks, collected, settles, ids, places⟩ :=
    collectTasks_tasks config scheduled reqIds distinct requests 0 ready
  have length : tasks.length = reqIds.length := by
    rw [← ids, length_map]
  have order := runs (submitBatches config.fillBitmaskParallelBatchSize tasks [])
  rw [submitBatches_flatten, nil_append] at order
  generalize entries :
    pool (submitBatches config.fillBitmaskParallelBatchSize tasks []) = ordered at order
  have indices : tasks.map (·.index) = range tasks.length := by
    apply ext_getElem?
    intro i
    rw [getElem?_map]
    cases found : tasks[i]? with
    | none =>
      rw [List.getElem?_eq_none_iff] at found
      rw [map_none, List.getElem?_eq_none_iff.mpr (by rwa [length_range])]
    | some task =>
      have below : i < tasks.length := (List.getElem?_eq_some_iff.mp found).1
      rw [map_some, (places i task found).index, Nat.zero_add, getElem?_range below]
  have rows : ∀ task ∈ ordered, TaskRow middle task (soleRow config requests task.reqId) := by
    intro task member
    obtain ⟨i, found⟩ := mem_iff_getElem?.mp (order.mem_iff.mp member)
    obtain ⟨_, request, structured, known, uses, flag⟩ := places i task found
    have listed : task.reqId ∈ reqIds := by
      rw [← ids]
      exact List.mem_map_of_mem (order.mem_iff.mp member)
    have after : middle.get? task.reqId = some (settled config request) := by
      rw [settles, if_pos listed, known, map_some]
    have structuredNow : (settled config request).structuredOutputRequest =
        some (shouldFillBitmask config request structured).2 := by
      simp only [settled, uses]
    refine ⟨_, _, after, structuredNow, ?_, ?_⟩
    · intro on
      obtain ⟨request', structured', known', uses', _, fills⟩ := ready task.reqId listed
      obtain rfl := some.inj (known.symm.trans known')
      obtain rfl := some.inj (uses.symm.trans uses')
      rw [shouldFillBitmask_grammar]
      exact (fills (flag ▸ on)).1 0 structured.grammar rfl
    · rw [shouldFillBitmask_grammar]
      simp only [soleRow, known, uses, flag]
  have inside : ∀ task ∈ ordered, task.index < bitmask.length := by
    intro task member
    have listed : task.index ∈ tasks.map (·.index) := List.mem_map_of_mem (order.mem_iff.mp member)
    rw [indices, mem_range] at listed
    omega
  obtain ⟨requests', done, kept⟩ := runTasks_rows ordered middle bitmask
    (fun task => soleRow config requests task.reqId) rows inside
  have sole : reqIds.flatMap (rowsFor config requests scheduled) =
      reqIds.map (soleRow config requests) := by
    rw [map_eq_flatMap]
    apply flatMap_congr
    intro reqId member
    exact rowsFor_sole config requests scheduled reqId (ready reqId member) (alone reqId member)
  refine ⟨middle, tasks, requests', collected, length, ?_, ?_⟩
  · rw [entries, done, sole]
    have entryIndices : (ordered.map fun task =>
        (task.index, soleRow config requests task.reqId)).map Prod.fst = ordered.map (·.index) := by
      rw [List.map_map]
      rfl
    have distinctIndices : (ordered.map (·.index)).Nodup := by
      rw [(order.map (·.index)).nodup_iff, indices]
      exact nodup_range
    obtain ⟨written, others, _⟩ := setRows_get
      (ordered.map fun task => (task.index, soleRow config requests task.reqId)) bitmask
      (by rw [entryIndices]; exact distinctIndices)
      (by
        intro entry member
        obtain ⟨task, inOrder, rfl⟩ := List.mem_map.mp member
        exact inside task inOrder)
    congr 2
    apply ext_getElem?
    intro i
    rw [writeAt_get _ _ _ _ (by rw [length_map]; omega)]
    by_cases within : i < reqIds.length
    · rw [if_pos (by rw [length_map]; omega), Nat.sub_zero]
      obtain ⟨task, found⟩ : ∃ task, tasks[i]? = some task :=
        ⟨tasks[i], getElem?_eq_getElem (by omega)⟩
      have reqId : reqIds[i]? = some task.reqId := by
        rw [← ids, getElem?_map, found, map_some]
      have place := (places i task found).index
      rw [Nat.zero_add] at place
      rw [getElem?_map, reqId]
      have here := written _ (List.mem_map_of_mem (order.mem_iff.mpr (mem_of_getElem? found)))
      rw [← place]
      exact here
    · rw [if_neg (by rw [length_map]; omega)]
      apply others
      rw [entryIndices, (order.map (·.index)).mem_iff, indices, mem_range]
      omega
  · intro reqId
    rw [kept reqId, settles reqId]

/-- What is promised of a step: the bitmask has its size, the flag is raised for a request that
gets a row, and the scheduler keeps to its limits. -/
structure ScheduledStep (config : ManagerConfig) (requests : Requests Grammar)
    (bitmask : Option (List Row)) (output : SchedulerOutput) : Prop where
  allocated : ∀ rows, bitmask = some rows →
    rows.length = config.maxNumSeqs * (1 + config.numSpeculativeTokens)
  flagged : structuredIds requests output ≠ [] → output.hasStructuredOutputRequests = true
  seqs : (structuredIds requests output).length ≤ config.maxNumSeqs

theorem rowsFor_length (reqId : ReqId) (ready : Ready config requests scheduled reqId) :
    (rowsFor config requests scheduled reqId).length = (draftsOf scheduled reqId).length + 1 := by
  obtain ⟨request, structured, known, uses, _⟩ := ready
  simp only [rowsFor, known, uses, rowsOf_length]

theorem rows_fit (ready : ∀ reqId ∈ reqIds, Ready config requests scheduled reqId) :
    (reqIds.flatMap (rowsFor config requests scheduled)).length ≤
      reqIds.length * (1 + config.numSpeculativeTokens) := by
  induction reqIds with
  | nil => simp
  | cons reqId rest ih =>
    have first := ready reqId mem_cons_self
    have here := rowsFor_length config requests scheduled reqId first
    obtain ⟨_, _, _, _, few, _⟩ := first
    have later := ih fun other member => ready other (mem_cons_of_mem _ member)
    rw [flatMap_cons, length_append, length_cons, Nat.add_mul]
    omega

/-- `get_grammar_bitmask` sends the rows of the structured output requests one after another. -/
theorem getGrammarBitmask_rows (pool : List (List FillTask) → List FillTask)
    (runs : ∀ batches, (pool batches).Perm batches.flatten) (requests : Requests Grammar)
    (bitmask : Option (List Row)) (output : SchedulerOutput)
    (step : ScheduledStep config requests bitmask output)
    (ready : ∀ reqId ∈ structuredIds requests output,
      Ready config requests output.scheduledSpecDecodeTokens reqId) :
    ∃ requests' bitmask', getGrammarBitmask config pool requests bitmask output =
        some (requests', bitmask', if structuredIds requests output = [] then none
          else some ⟨structuredIds requests output, (structuredIds requests output).flatMap
            (rowsFor config requests output.scheduledSpecDecodeTokens)⟩) ∧
      Settles config (structuredIds requests output) requests requests' := by
  have distinct : (structuredIds requests output).Nodup := output.numScheduledTokens.unique.filter _
  have seqs := step.seqs
  have flagged := step.flagged
  rw [getGrammarBitmask]
  generalize structuredIds requests output = reqIds at *
  by_cases empty : reqIds = []
  · subst empty
    refine ⟨requests, bitmask, ?_, fun reqId => by simp⟩
    rw [isEmpty_nil, if_pos rfl, if_pos rfl, ite_self]
  · have notEmpty : ¬ reqIds.isEmpty = true := by
      rwa [List.isEmpty_iff]
    have raised : ¬ output.hasStructuredOutputRequests = false := by
      rw [flagged empty]
      exact Bool.noConfusion
    have size : (bitmask.getD (replicate
        (config.maxNumSeqs * (1 + config.numSpeculativeTokens)) fullMask)).length =
          config.maxNumSeqs * (1 + config.numSpeculativeTokens) := by
      cases kind : bitmask with
      | none => rw [getD_none, length_replicate]
      | some rows => exact step.allocated rows kind
    have room := (rows_fit config requests output.scheduledSpecDecodeTokens reqIds ready).trans
      (Nat.mul_le_mul_right (1 + config.numSpeculativeTokens) seqs)
    rw [if_neg raised, if_neg notEmpty, if_neg empty, grammarBitmask, if_neg notEmpty]
    generalize bitmask.getD (replicate
      (config.maxNumSeqs * (1 + config.numSpeculativeTokens)) fullMask) = rows at size
    have sent (written : List Row) (count : Nat)
        (whole : written = writeAt rows 0
          (reqIds.flatMap (rowsFor config requests output.scheduledSpecDecodeTokens)))
        (counted : count = (reqIds.flatMap
          (rowsFor config requests output.scheduledSpecDecodeTokens)).length) :
        written.take count =
          reqIds.flatMap (rowsFor config requests output.scheduledSpecDecodeTokens) := by
      subst whole counted
      apply ext_getElem?
      intro i
      rw [getElem?_take, writeAt_get _ _ _ _ (by omega)]
      by_cases below : i < (reqIds.flatMap
          (rowsFor config requests output.scheduledSpecDecodeTokens)).length
      · rw [if_pos below, if_pos (by omega), Nat.sub_zero]
      · rw [if_neg below, List.getElem?_eq_none_iff.mpr (by omega)]
    by_cases parallel : reqIds.length > config.fillBitmaskParallelThreshold ∧
        config.numSpeculativeTokens = 0
    · rw [if_pos parallel]
      have alone : ∀ reqId ∈ reqIds, draftsOf output.scheduledSpecDecodeTokens reqId = [] := by
        intro reqId member
        obtain ⟨_, _, _, _, few, _⟩ := ready reqId member
        rw [parallel.2] at few
        exact length_eq_zero_iff.mp (Nat.le_zero.mp few)
      obtain ⟨middle, tasks, requests', collected, length, done, settles⟩ := parallel_rows config runs distinct ready alone (by
          rw [size, parallel.2, Nat.mul_one]
          exact seqs)
      refine ⟨requests', some (writeAt rows 0 (reqIds.flatMap
        (rowsFor config requests output.scheduledSpecDecodeTokens))), ?_, settles⟩
      simp only [collected, done, map_some]
      rw [sent _ tasks.length rfl (by
        rw [length, length_flatMap]
        have ones : reqIds.map (fun reqId =>
            (rowsFor config requests output.scheduledSpecDecodeTokens reqId).length) =
              reqIds.map fun _ => 1 := by
          apply map_congr_left
          intro reqId member
          rw [rowsFor_length config requests _ reqId (ready reqId member), alone reqId member]
          rfl
        rw [ones]
        simp)]
    · rw [if_neg parallel]
      obtain ⟨requests', done, settles⟩ := fillSerial_rows config output.scheduledSpecDecodeTokens
        reqIds distinct requests rows 0 ready (by omega)
      refine ⟨requests', some (writeAt rows 0 (reqIds.flatMap
        (rowsFor config requests output.scheduledSpecDecodeTokens))), ?_, settles⟩
      simp only [done, map_some]
      rw [sent _ _ rfl (Nat.zero_add _)]

end VllmDcu.GrammarMasks
