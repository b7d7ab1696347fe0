import Mathlib.Data.Finset.Card
import Qros.Storage.AuditChain

/-!
# Reasoning chains

`ReasoningChain` of `researchos/objects/process.py`: its steps, its verification and what is left of
it in `to_dict`.

The lifecycle is not modelled: the operations only enter the stages `CREATED` and `VERIFIED`, which
a transition can leave.
-/

namespace Qros.Objects

open Qros.Lib Qros.Python Qros.Storage List

structure Step where
  order : Nat
  rule : String
  inputs : List String
  outputs : List String
  description : String

structure ReasoningChain (F : Type) where
  researchId : String
  initialInputs : List String
  steps : List Step
  inputs : List String
  outputs : List String
  rulesApplied : List String
  evidenceUsed : List String
  confidence : F
  trace : String
  chainHash : String
  ontologyTags : List String

/-- The entries of `to_dict()` that `from_dict` reads; `none` for one that is missing. -/
structure ChainDict (F : Type) where
  researchId : String
  initialInputs : Option (List String) := none
  steps : Option (List Step) := none
  inputs : Option (List String) := none
  outputs : Option (List String) := none
  rulesApplied : Option (List String) := none
  evidenceUsed : Option (List String) := none
  confidence : Option F := none
  trace : Option String := none
  chainHash : Option String := none
  ontologyTags : Option (List String) := none

/-- `items.extend(x for x in new if x not in items)`, which sees what it has added. -/
def extendNew (items new : List String) : List String :=
  new.foldl (fun items x ↦ if x ∈ items then items else items ++ [x]) items

/-- The loop of `verify`: the available references after the steps, or `none` where a step after
the first has an input that is not available. -/
def replay : Nat → Finset String → List Step → Option (Finset String)
  | _, available, [] => some available
  | index, available, step :: steps =>
    if 0 < index ∧ ¬ step.inputs.toFinset ⊆ available then none
    else replay (index + 1) (available ∪ step.outputs.toFinset) steps

def Step.toJson (F : Type) (step : Step) : Json F :=
  .dict [
    ("order", .int step.order),
    ("rule", .str step.rule),
    ("inputs", .list (step.inputs.map .str)),
    ("outputs", .list (step.outputs.map .str)),
    ("description", .str step.description)]

namespace ReasoningChain

variable {F : Type}

/-- The constructor. -/
def new (researchId : String) (steps : List Step)
    (inputs outputs rulesApplied evidenceUsed : List String) (confidence : F) (trace : String)
    (ontologyTags : List String) : ReasoningChain F where
  researchId := researchId
  initialInputs := inputs
  steps := steps
  inputs := inputs
  outputs := outputs
  rulesApplied := rulesApplied
  evidenceUsed := evidenceUsed
  confidence := confidence
  trace := trace
  chainHash := ""
  ontologyTags := ontologyTags

def addStep (rule : String) (inputs outputs : List String) (description : String)
    (chain : ReasoningChain F) : ReasoningChain F :=
  { chain with
    steps := chain.steps ++ [⟨chain.steps.length + 1, rule, inputs, outputs, description⟩]
    rulesApplied := chain.rulesApplied ++ [rule]
    inputs := extendNew chain.inputs inputs
    outputs := extendNew chain.outputs outputs
    evidenceUsed := extendNew chain.evidenceUsed
      (inputs.filter fun i ↦ "ev_".toList.isPrefixOf i.toList) }

def toHashableDict (chain : ReasoningChain F) : Json F :=
  let strings (xs : List String) : Json F := .list ((sortStrings xs).map .str)
  .dict [
    ("research_id", .str chain.researchId),
    ("steps", .list (chain.steps.map (Step.toJson F))),
    ("inputs", strings chain.inputs),
    ("outputs", strings chain.outputs),
    ("rules_applied", strings chain.rulesApplied),
    ("evidence_used", strings chain.evidenceUsed),
    ("confidence", .float chain.confidence),
    ("trace", .str chain.trace),
    ("ontology_tags", strings chain.ontologyTags)]

def verifiedTrace (chain : ReasoningChain F) (available : Finset String) : String :=
  "Chain verified: " ++ toString chain.steps.length ++ " steps, " ++
    toString chain.initialInputs.length ++ " inputs, " ++ toString available.card ++ " outputs"

def toDict (chain : ReasoningChain F) : ChainDict F where
  researchId := chain.researchId
  steps := chain.steps
  inputs := chain.inputs
  outputs := chain.outputs
  rulesApplied := chain.rulesApplied
  evidenceUsed := chain.evidenceUsed
  confidence := chain.confidence
  chainHash := chain.chainHash
  trace := chain.trace
  ontologyTags := chain.ontologyTags

def fromDict [FloatText F] (data : ChainDict F) : ReasoningChain F where
  researchId := data.researchId
  initialInputs := data.initialInputs.getD (data.inputs.getD [])
  steps := data.steps.getD []
  inputs := data.inputs.getD []
  outputs := data.outputs.getD []
  rulesApplied := data.rulesApplied.getD []
  evidenceUsed := data.evidenceUsed.getD []
  confidence := data.confidence.getD (FloatText.ofText "0.0".toList)
  trace := data.trace.getD ""
  chainHash := data.chainHash.getD ""
  ontologyTags := data.ontologyTags.getD []

/-- `from_dict(to_dict())`. -/
def reload [FloatText F] (chain : ReasoningChain F) : ReasoningChain F := fromDict chain.toDict

section Verify

variable [FloatText F] [Hashlib]

/-- The chain with the trace and the hash that `verify` gives it. -/
def verified (chain : ReasoningChain F) (available : Finset String) : ReasoningChain F :=
  let traced := { chain with trace := chain.verifiedTrace available }
  { traced with chainHash := (deterministicHash F traced.toHashableDict).text }

def verify (chain : ReasoningChain F) : Bool × ReasoningChain F :=
  if chain.steps = [] then (false, chain)
  else
    match replay 0 chain.initialInputs.toFinset chain.steps with
    | none => (false, chain)
    | some available => (true, chain.verified available)

end Verify

end ReasoningChain

/-! ## What is verified -/

/-- Every input of a step after the first is given or an output of a step before. -/
def Supported (given : List String) (steps : List Step) : Prop :=
  ∀ pre step post, steps = pre ++ step :: post → pre ≠ [] →
    ∀ i ∈ step.inputs, i ∈ given ∨ ∃ s ∈ pre, i ∈ s.outputs

theorem Supported.mono {given given' : List String} {steps : List Step} (h : Supported given steps)
    (hsub : given ⊆ given') : Supported given' steps :=
  fun pre step post heq hpre i hi ↦ (h pre step post heq hpre i hi).imp_left (@hsub i)

theorem replay_isSome_iff {index : Nat} {available : Finset String} {steps : List Step} :
    (replay index available steps).isSome = true ↔
      ∀ pre step post, steps = pre ++ step :: post → 0 < index + pre.length →
        ∀ i ∈ step.inputs, i ∈ available ∨ ∃ s ∈ pre, i ∈ s.outputs := by
  induction steps generalizing index available with
  | nil =>
    refine iff_of_true rfl fun pre step post heq ↦ ?_
    exact absurd heq.symm (append_ne_nil_of_right_ne_nil _ (cons_ne_nil _ _))
  | cons step steps ih =>
    rw [replay]
    by_cases hguard : 0 < index ∧ ¬ step.inputs.toFinset ⊆ available
    · rw [if_pos hguard]
      refine iff_of_false Bool.false_ne_true fun h ↦ hguard.2 fun i hi ↦ ?_
      rcases h [] step steps rfl hguard.1 i (mem_toFinset.mp hi) with hi | ⟨s, hs, -⟩
      · exact hi
      · cases hs
    · rw [if_neg hguard, ih]
      constructor
      · intro h pre step' post heq hpos i hi
        cases pre with
        | nil =>
          obtain ⟨rfl, -⟩ := List.cons.inj heq
          have hsub := not_not.mp (not_and.mp hguard hpos)
          exact .inl (hsub (mem_toFinset.mpr hi))
        | cons first pre =>
          obtain ⟨rfl, hrest⟩ := List.cons.inj heq
          rcases h pre step' post hrest (by omega) i hi with hi | ⟨s, hs, hi⟩
          · rw [Finset.mem_union, mem_toFinset] at hi
            exact hi.imp_right fun hi ↦ ⟨step, mem_cons_self, hi⟩
          · exact .inr ⟨s, mem_cons_of_mem _ hs, hi⟩
      · intro h pre step' post heq _ i hi
        rw [Finset.mem_union, mem_toFinset, or_assoc]
        refine (h (step :: pre) step' post (congrArg _ heq) (Nat.succ_pos _) i hi).imp_right ?_
        rintro ⟨s, hs, hi⟩
        rcases mem_cons.mp hs with rfl | hs
        · exact .inl hi
        · exact .inr ⟨s, hs, hi⟩

theorem prefix_extendNew (items new : List String) : items <+: extendNew items new := by
  induction new generalizing items with
  | nil => exact List.prefix_refl items
  | cons x new ih =>
    rw [extendNew, foldl_cons]
    split
    · exact ih items
    · exact (List.prefix_append items [x]).trans (ih _)

namespace ReasoningChain

variable {F : Type} [FloatText F] [Hashlib] {chain : ReasoningChain F}

theorem verify_eq_true_iff :
    chain.verify.1 = true ↔ chain.steps ≠ [] ∧ Supported chain.initialInputs chain.steps := by
  have hreplay : (replay 0 chain.initialInputs.toFinset chain.steps).isSome = true ↔
      Supported chain.initialInputs chain.steps := by
    rw [replay_isSome_iff]
    simp only [Supported, mem_toFinset, Nat.zero_add, length_pos_iff]
  rw [← hreplay, verify]
  split
  · rename_i hnil
    exact iff_of_false Bool.false_ne_true fun h ↦ h.1 hnil
  · rename_i hne
    split
    · rename_i hnone
      rw [hnone]
      exact iff_of_false Bool.false_ne_true fun h ↦ Bool.false_ne_true h.2
    · rename_i hsome
      rw [hsome]
      exact iff_of_true rfl ⟨hne, rfl⟩

theorem verify_eq_verified (h : chain.verify.1 = true) :
    ∃ available, chain.verify.2 = chain.verified available := by
  unfold verify at h ⊢
  split at h
  · cases h
  · rename_i hne
    rw [if_neg hne]
    split at h
    · cases h
    · rename_i available _
      exact ⟨available, rfl⟩

/-! ## Reloaded chains -/

omit [Hashlib] in

/-- The reloaded chain is verified as the chain itself, with the same hash. -/
def Reloads (chain : ReasoningChain F) : Prop :=
  chain.reload.verify.1 = chain.verify.1 ∧
    (chain.verify.1 = true → chain.reload.verify.2.chainHash = chain.verify.2.chainHash)

/-- The inputs are the initial ones, or the chain is rejected with all of them. -/
def Settled (chain : ReasoningChain F) : Prop :=
  chain.inputs = chain.initialInputs ∨ chain.steps = [] ∨ ¬ Supported chain.inputs chain.steps

theorem reloads_of_settled (hfirst : chain.initialInputs <+: chain.inputs)
    (h : chain.Settled) : chain.Reloads := by
  have hrejected (hnot : ¬ (chain.steps ≠ [] ∧ Supported chain.inputs chain.steps)) :
      chain.Reloads := by
    have hreload : ¬ chain.reload.verify.1 = true := fun hv ↦ hnot (verify_eq_true_iff.mp hv)
    have hchain : ¬ chain.verify.1 = true := fun hv ↦
      hnot ((verify_eq_true_iff.mp hv).imp_right fun hs ↦ hs.mono hfirst.subset)
    rw [Bool.not_eq_true] at hreload hchain
    exact ⟨hreload.trans hchain.symm, fun hv ↦ absurd (hv.symm.trans hchain) (by decide)⟩
  rcases h with hinputs | hnil | hunsupported
  · have hsame : chain.reload = chain := by
      obtain ⟨_, initialInputs, _, inputs⟩ := chain
      obtain rfl : inputs = initialInputs := hinputs
      rfl
    unfold Reloads
    rw [hsame]
    exact ⟨rfl, fun _ ↦ rfl⟩
  · exact hrejected fun h ↦ h.1 hnil
  · exact hrejected fun h ↦ hunsupported h.2

omit [FloatText F] [Hashlib] in
theorem length_initialInputs_of_trace {chain' : ReasoningChain F}
    {available available' : Finset String} (hsteps : chain.steps = chain'.steps)
    (h : chain.verifiedTrace available = chain'.verifiedTrace available') :
    chain.initialInputs.length = chain'.initialInputs.length := by
  have hchars := congrArg String.toList h
  unfold verifiedTrace at hchars
  rw [hsteps] at hchars
  simp only [String.toList_append, append_assoc, Nat.toString_eq_repr, Nat.toList_repr]
    at hchars
  have hcount := append_cancel_left (append_cancel_left (append_cancel_left hchars))
  have hdigits (n : Nat) (rest : List Char) :
      (Nat.toDigits 10 n ++ (" inputs, ".toList ++ rest)).takeWhile Char.isDigit =
        Nat.toDigits 10 n := by
    have hall : IsDigits (Nat.toDigits 10 n) := fun c hc ↦
      Nat.isDigit_of_mem_toDigits (by decide) (by decide) hc
    exact (span_digits hall fun c hc ↦ by cases hc; rfl).1
  have htoDigits := congrArg (List.takeWhile Char.isDigit) hcount
  rw [hdigits, hdigits] at htoDigits
  have hvalue := congrArg (Nat.ofDigitChars 10 · 0) htoDigits
  simpa only [Nat.ofDigitChars_ten_toDigits] using hvalue

section Hash

/-- The entries of the dictionary that is hashed, but the last one. -/
def hashedBefore (chain : ReasoningChain F) : List (String × Json F) :=
  let strings (xs : List String) : Json F := (Json.list ((sortStrings xs).map .str)).sortKeys
  [("confidence", .float chain.confidence),
    ("evidence_used", strings chain.evidenceUsed),
    ("inputs", strings chain.inputs),
    ("ontology_tags", strings chain.ontologyTags),
    ("outputs", strings chain.outputs),
    ("research_id", .str chain.researchId),
    ("rules_applied", strings chain.rulesApplied),
    ("steps", (Json.list (chain.steps.map (Step.toJson F))).sortKeys)]

omit [FloatText F] [Hashlib] in
theorem sortKeys_toHashableDict (chain : ReasoningChain F) :
    chain.toHashableDict.sortKeys = .dict
    (chain.hashedBefore ++ [("trace", .str chain.trace)]) := by
  show Json.dict (sortEntries (Json.sortValues _)) = _
  simp only [Json.sortValues_eq_map, map_cons, map_nil]
  simp [sortEntries, List.insertionSort, List.orderedInsert, hashedBefore, Json.sortKeys]

def hashedText (chain : ReasoningChain F) (trace : String) : List Char :=
  (Json.dict (chain.hashedBefore ++ [("trace", .str trace)])).text .default

theorem chainHash_verified (chain : ReasoningChain F) (available : Finset String) :
    (chain.verified available).chainHash =
      (sha256 (chain.hashedText (chain.verifiedTrace available))).text := by
  change (deterministicHash F
    ({ chain with trace := chain.verifiedTrace available }).toHashableDict).text = _
  unfold deterministicHash
  rw [sortKeys_toHashableDict]
  rfl

omit [Hashlib] in
theorem hashedText_reload (chain : ReasoningChain F) :
    chain.reload.hashedText = chain.hashedText := rfl

variable [LawfulFloatText F]

omit [Hashlib] in
theorem hashedText_injective (chain : ReasoningChain F) : Function.Injective chain.hashedText := by
  intro trace trace' h
  have htrace : (Json.str trace : Json F).text .default = (Json.str trace').text .default :=
    (Json.text_dict_middle Separators.default chain.hashedBefore [] "trace" _ _).mp h
  have hdistinct (s : String) : (Json.str s : Json F).Distinct := trivial
  exact Json.str.inj (decoded_eq_of_text_eq Separators.plain_default (hdistinct trace)
    (hdistinct trace') htrace)

theorem settled_of_reloads (hsha : ∀ s t, sha256 s = sha256 t → s = t)
    (hfirst : chain.initialInputs <+: chain.inputs) (h : chain.Reloads) : chain.Settled := by
  obtain ⟨hverdict, hhash⟩ := h
  by_cases hnil : chain.steps = []
  · exact .inr (.inl hnil)
  by_cases hsupported : Supported chain.inputs chain.steps
  · have hreload : chain.reload.verify.1 = true := verify_eq_true_iff.mpr ⟨hnil, hsupported⟩
    have hchain : chain.verify.1 = true := hverdict.symm.trans hreload
    obtain ⟨available, hverified⟩ := verify_eq_verified hchain
    obtain ⟨available', hverified'⟩ := verify_eq_verified hreload
    have hsame := hhash hchain
    rw [hverified, hverified', chainHash_verified, chainHash_verified, hashedText_reload] at hsame
    have htrace : chain.reload.verifiedTrace available' = chain.verifiedTrace available :=
      chain.hashedText_injective (hsha _ _ (HexDigest.text_injective hsame))
    have hlength : chain.reload.initialInputs.length = chain.initialInputs.length :=
      length_initialInputs_of_trace rfl htrace
    exact .inl (hfirst.eq_of_length hlength.symm).symm
  · exact .inr (.inr hsupported)

end Hash

end ReasoningChain

/-! ## Runs -/

inductive Operation where
  | addStep (rule : String) (inputs outputs : List String) (description : String)
  | verify
  | reload

section Runs

variable {F : Type} [FloatText F] [Hashlib]

/-- A chain under the operations, with the verdict of `verify`. -/
def chains (start : ReasoningChain F) :
    Machine (ReasoningChain F) Operation (Option Bool) where
  init := start
  step
    | .addStep rule inputs outputs description, chain =>
      (none, chain.addStep rule inputs outputs description)
    | .verify, chain => (some chain.verify.1, chain.verify.2)
    | .reload, chain => (none, chain.reload)

theorem initialInputs_prefix_verify {chain : ReasoningChain F}
    (h : chain.initialInputs <+: chain.inputs) :
    chain.verify.2.initialInputs <+: chain.verify.2.inputs := by
  unfold ReasoningChain.verify
  split
  · exact h
  · split <;> exact h

theorem initialInputs_prefix_after {start : ReasoningChain F}
    (hstart : start.initialInputs <+: start.inputs) (operations : List Operation) :
    ((chains start).after operations).initialInputs <+:
    ((chains start).after operations).inputs := by
  refine (chains start).after_stable (fun chain ↦ chain.initialInputs <+: chain.inputs) ?_
    (List.nil_prefix (l := operations)) hstart
  intro operation chain h
  cases operation with
  | addStep rule inputs outputs description => exact h.trans (prefix_extendNew _ _)
  | verify => exact initialInputs_prefix_verify h
  | reload => exact List.prefix_refl _

variable [LawfulFloatText F]

/-- **Reloaded reasoning chains.**  At every point of every run, a chain whose inputs are still the
initial ones, or that is rejected with all of them, is verified as its reloaded copy is; if the hash
tells texts apart, no other chain is. -/
theorem reloads_iff_settled (researchId : String) (steps : List Step)
    (inputs outputs rulesApplied evidenceUsed : List String) (confidence : F) (trace : String)
    (ontologyTags : List String) (operations : List Operation) :
    let start := ReasoningChain.new researchId steps inputs outputs rulesApplied evidenceUsed
      confidence trace ontologyTags
    let chain := (chains start).after operations
    (chain.Settled → chain.Reloads) ∧
      ((∀ s t, sha256 s = sha256 t → s = t) → chain.Reloads → chain.Settled) := by
  intro start chain
  have hfirst : chain.initialInputs <+: chain.inputs :=
    initialInputs_prefix_after (List.prefix_refl inputs) operations
  exact ⟨ReasoningChain.reloads_of_settled hfirst,
    fun hsha ↦ ReasoningChain.settled_of_reloads hsha hfirst⟩

end Runs

theorem reloads_iff_settled_sample :
    let start := ReasoningChain.new "res_1" [] ["a"] [] [] [] (.tenths 0) "" []
    let chain := (@chains Tenths _ approvalHash start).after
      [.addStep "first" ["a"] ["b"] "", .verify, .reload]
    (chain.Settled → @ReasoningChain.Reloads Tenths _ approvalHash chain) ∧
      ((∀ s t, approvalHash.sha256 s = approvalHash.sha256 t → s = t) →
        @ReasoningChain.Reloads Tenths _ approvalHash chain → chain.Settled) :=
  @reloads_iff_settled Tenths _ approvalHash _ "res_1" [] ["a"] [] [] [] (.tenths 0) "" []
    [.addStep "first" ["a"] ["b"] "", .verify, .reload]

/-- The second of two steps uses `x`, which nothing has produced. -/
def unproduced : ReasoningChain Tenths :=
  let start := ReasoningChain.new "res_1" [] ["a"] [] [] [] (.tenths 0) "" []
  (start.addStep "first" ["a"] ["b"] "").addStep "second" ["x"] ["c"] ""

/-- The chain is rejected, and verified once it is reloaded. -/
theorem unproduced_reloads_verified :
    (@ReasoningChain.verify Tenths _ approvalHash unproduced).1 = false ∧
    (@ReasoningChain.verify Tenths _ approvalHash unproduced.reload).1 = true ∧
    ¬ @ReasoningChain.Reloads Tenths _ approvalHash unproduced := by
  have hchain : (@ReasoningChain.verify Tenths _ approvalHash unproduced).1 = false := by
    decide
  have hreload : (@ReasoningChain.verify Tenths _ approvalHash unproduced.reload).1 = true := by
    decide
  refine ⟨hchain, hreload, fun h ↦ ?_⟩
  exact absurd (hreload.symm.trans (h.1.trans hchain)) (by decide)

end Qros.Objects
