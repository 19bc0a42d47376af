import ClusterPackages.Version.Upgrade
import Mathlib.Tactic.Common

/-! No text is an upgrade of itself, whether it is a version or not. -/

namespace ClusterPackages

namespace Identifier

theorem compareText_self (cs : List Char) : compareText cs cs = .eq := by
  induction cs with
  | nil => rfl
  | cons c cs ih => simp [compareText, ih]

theorem compare_self (a : Identifier) : a.compare a = .eq := by
  unfold Identifier.compare
  cases a.isNumeric <;> simp [compareText_self]

theorem compareRows_self (as : List Identifier) : compareRows as as = .eq := by
  induction as with
  | nil => rfl
  | cons a as ih => simp [compareRows, compare_self, ih]

theorem comparePre_self (as : List Identifier) : comparePre as as = .eq := by
  cases as with
  | nil => rfl
  | cons a as => exact compareRows_self (a :: as)

end Identifier

theorem Version.comparePrecedence_self (v : Version) : v.comparePrecedence v = .eq := by
  simp [comparePrecedence, Identifier.comparePre_self]

theorem isBuildUpgrade_self (ids : List Identifier) : isBuildUpgrade ids ids = false := by
  simp [isBuildUpgrade]

theorem isUpgradable_self (version : String) : isUpgradable version version = false := by
  unfold isUpgradable
  cases Version.parse? version with
  | none => simp
  | some v => simp [Version.isUpgrade, v.comparePrecedence_self, isBuildUpgrade_self]

end ClusterPackages
