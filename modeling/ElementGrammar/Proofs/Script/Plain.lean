import ElementGrammar.Proofs.Xsd.Plain
import ElementGrammar.Script.Step

/-!
# Scripts that break no line

A script is a rule that is put together from the combinators, so what it says is in its steps:
names, keys, expected values and messages.  Where these are on one line the script is a plain
rule (`Script.plainSpoken_rule`).  The scripts that it calls have to be like that as well.
-/

namespace ElementGrammar

open Rule
open Text (OneLine oneLine_append oneLine_scalarError)

mutual

/-- A step with what it says on one line. -/
def Step.Plain : Step → Prop
  | .matchName wanted => OneLine wanted
  | .attr key => OneLine key
  | .attrEq key expected => OneLine key ∧ OneLine expected
  | .attrRead _ key => OneLine key
  | .attrReadOpt _ key => OneLine key
  | .fail message => OneLine message
  | .child script => Step.PlainAll script
  | .childOpt script => Step.PlainAll script
  | .children script => Step.PlainAll script
  | .childrenOpt script => Step.PlainAll script
  | .childrenAtMost _ script => Step.PlainAll script
  | .oneOf scripts => Step.PlainScripts scripts
  | .attempt script => Step.PlainAll script
  | .call script => OneLine script
  | _ => True

def Step.PlainAll : List Step → Prop
  | [] => True
  | step :: steps => Step.Plain step ∧ Step.PlainAll steps

def Step.PlainScripts : List (List Step) → Prop
  | [] => True
  | script :: scripts => Step.PlainAll script ∧ Step.PlainScripts scripts

end

/-- A script whose steps are plain. -/
abbrev Script.Plain (script : Script) : Prop :=
  Step.PlainAll script

/-- Scripts that are plain under any name. -/
def Library.Plain (library : Library) : Prop :=
  ∀ p ∈ library, p.2.Plain

namespace Script

variable {call : String → Rule Value}

theorem plainSpoken_forget {rule : Rule Unit} (h : rule.PlainSpoken) :
    (forget rule).PlainSpoken :=
  h.then fun _ => trivial

theorem plainSpoken_listed {rule : Rule (List Value)} (h : rule.PlainSpoken) :
    (listed rule).PlainSpoken :=
  h.then fun _ => trivial

theorem plainSpoken_numbered {rules : List (Rule Value)} (h : ∀ rule ∈ rules, rule.PlainSpoken) :
    ∀ rule ∈ numbered rules, rule.PlainSpoken := by
  intro rule hrule
  obtain ⟨⟨inner, i⟩, hinner, rfl⟩ := List.mem_map.mp hrule
  exact (h inner (List.fst_mem_of_mem_zipIdx hinner)).then fun _ => trivial

mutual

/-- The rule of a plain step is plain, where the rules that it calls are. -/
theorem plainSpoken_ofStep (hcall : ∀ name, OneLine name → (call name).PlainSpoken) :
    (step : Step) → step.Plain → (ofStep call step).PlainSpoken
  | .matchName _, h => plainSpoken_forget (plainSpoken_matchName h)
  | .attr _, h => (plainSpoken_attr h).then fun _ => trivial
  | .attrOpt key, _ => (plainSpoken_takeAttr key).then fun _ => trivial
  | .attrEq _ _, h => plainSpoken_forget (plain_attrEq h.1 h.2 trivial)
  | .attrRead _ _, h => plain_attrRead oneLine_scalarError h fun _ => trivial
  | .attrReadOpt _ _, h => plain_attrReadOpt oneLine_scalarError h fun _ => trivial
  | .dropAttr key, _ => plainSpoken_forget (plainSpoken_dropAttr key)
  | .dropAttrsFrom start, _ => plainSpoken_forget (plainSpoken_dropAttrsFrom start)
  | .dropChildrenNamed name, _ => plainSpoken_forget (plainSpoken_dropChildrenNamed name)
  | .text, _ => plain_text fun _ => trivial
  | .blankText, _ => plainSpoken_forget (plain_blankText trivial)
  | .ensureDrained, _ => trivial
  | .name, _ => plainSpoken_element.then fun _ => trivial
  | .intro, _ => plainSpoken_element.then fun _ => trivial
  | .scope, _ => fun _ _ => trivial
  | .fail _, h => h
  | .child script, h => plainSpoken_child (plainSpoken_listed (plainSpoken_ofSteps hcall script h))
  | .childOpt script, h =>
    (plainSpoken_childOpt (plainSpoken_listed (plainSpoken_ofSteps hcall script h))).then
      fun _ => trivial
  | .children script, h =>
    (plainSpoken_children (plainSpoken_listed (plainSpoken_ofSteps hcall script h))).then
      fun _ => trivial
  | .childrenOpt script, h =>
    (plainSpoken_childrenOpt (plainSpoken_listed (plainSpoken_ofSteps hcall script h))).then
      fun _ => trivial
  | .childrenAtMost _ script, h =>
    ⟨fun _ => True, plainSpoken_listed (plainSpoken_ofSteps hcall script h), fun _ _ => trivial⟩
  | .oneOf scripts, h => plain_oneOf (plainSpoken_numbered (plainSpoken_ofScripts hcall scripts h))
  | .attempt script, h =>
    ⟨plainSpoken_listed (plainSpoken_ofSteps hcall script h), fun _ _ => trivial⟩
  | .call name, h => plainSpoken_element.then fun _ => hcall name h
  | .grammar rule, _ => (rule.plainSpoken_rule .declared).then fun _ => trivial

theorem plainSpoken_ofSteps (hcall : ∀ name, OneLine name → (call name).PlainSpoken) :
    (steps : List Step) → Step.PlainAll steps → (ofSteps call steps).PlainSpoken
  | [], _ => trivial
  | step :: steps, h => (plainSpoken_ofStep hcall step h.1).then fun _ =>
    (plainSpoken_ofSteps hcall steps h.2).then fun _ => trivial

theorem plainSpoken_ofScripts (hcall : ∀ name, OneLine name → (call name).PlainSpoken) :
    (scripts : List (List Step)) → Step.PlainScripts scripts →
      ∀ rule ∈ ofScripts call scripts, rule.PlainSpoken
  | [], _ => fun _ hrule => absurd hrule List.not_mem_nil
  | script :: scripts, h => List.forall_mem_cons.mpr
    ⟨plainSpoken_listed (plainSpoken_ofSteps hcall script h.1),
      plainSpoken_ofScripts hcall scripts h.2⟩

end

/-- Calls to any number of levels.  A call without a script says its name. -/
theorem plainSpoken_callWithin {library : Library} (hlibrary : library.Plain) (levels : Nat) :
    ∀ name, OneLine name → (callWithin library levels name).PlainSpoken := by
  induction levels with
  | zero =>
    intro name _
    show OneLine _
    decide
  | succ levels ih =>
    intro name hname
    unfold callWithin
    split
    · show OneLine _
      exact oneLine_append.mpr ⟨by decide, hname⟩
    · rename_i script hscript
      obtain ⟨earlier, later, hsplit, _⟩ := List.lookup_eq_some_iff.mp hscript
      have hmem : (name, script) ∈ library := by
        rw [hsplit]
        exact List.mem_append_right _ List.mem_cons_self
      exact plainSpoken_listed (plainSpoken_ofSteps ih script (hlibrary _ hmem))

/-- A plain script is a plain rule. -/
theorem plainSpoken_rule {library : Library} {script : Script} (hlibrary : library.Plain)
    (hscript : script.Plain) : (rule library script).PlainSpoken := by
  unfold rule
  refine plainSpoken_element.then fun e => plainSpoken_listed ?_
  exact plainSpoken_ofSteps (plainSpoken_callWithin hlibrary _) script hscript

end Script

end ElementGrammar
