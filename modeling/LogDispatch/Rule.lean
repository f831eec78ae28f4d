import LogDispatch.Error
import LogDispatch.Rule.Size

/-! Include and exclude rules. A rule names channels, exactly or by a wildcard pattern, and may carry a rank
    from which it applies. Of the rules of a list that match a channel the last one counts. -/

namespace LogDispatch

/-- From where a rule applies: at every level, or from a rank on. -/
inductive Threshold where
  | always
  | rank (rank : Nat)
  deriving DecidableEq, Repr

structure Rule where
  pattern : String
  threshold : Threshold
  deriving DecidableEq, Repr

/-- A rule, unless its pattern is a wildcard pattern that is too large. -/
def Rule.ofPattern (pattern : String) (threshold : Threshold) : Except ConfigFault Rule :=
  if Glob.isWild pattern && Glob.sizeLimit < Glob.programSize pattern then
    .error (.badPattern pattern ("Compiled regex exceeds size limit of " ++ toString Glob.sizeLimit ++ " bytes."))
  else .ok ⟨pattern, threshold⟩

/-- A pattern with a wildcard matches as a glob, any other one only the same text. -/
def Rule.appliesTo (r : Rule) (channel : String) : Bool :=
  if Glob.isWild r.pattern then Glob.fits r.pattern channel else r.pattern == channel

abbrev RuleSet := List Rule

namespace RuleSet

/-- The threshold of the last rule for the channel. -/
def threshold? (rules : RuleSet) (channel : String) : Option Threshold :=
  (rules.reverse.find? (·.appliesTo channel)).map (·.threshold)

end RuleSet

namespace Threshold

/-- Two thresholds of which either may be missing, joined by `pick` where both carry a rank. -/
def merge (pick : Nat → Nat → Nat) : Option Threshold → Option Threshold → Option Threshold
  | none, b => b
  | a, none => a
  | some (.rank a), some (.rank b) => some (.rank (pick a b))
  | some _, some _ => some .always

/-- Two includes: the lower rank admits more, and `always` admits all. -/
def mergeInclude : Option Threshold → Option Threshold → Option Threshold := merge min

/-- Two excludes: the higher rank closes more, and `always` closes all. -/
def mergeExclude : Option Threshold → Option Threshold → Option Threshold := merge max

end Threshold

end LogDispatch
