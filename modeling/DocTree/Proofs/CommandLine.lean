/-
# Depths on the command line

Options that are understood ask for a depth from 1 to 64 (`depth_bounds_of_parse`): no argument
that is taken makes the depth another one (`Progress.hasDepthInRange_of_take`), and where none
is given it is 1.
-/

import DocTree.CommandLine

namespace DocTree
namespace CommandLine

/-- A depth that is spelled is one that can be asked for. -/
theorem depth?_bounds {value : String} {depth : Nat} (h : depth? value = some depth) :
    1 ≤ depth ∧ depth ≤ maxDepth := by
  simp only [depth?, Option.ite_none_right_eq_some, Option.some.injEq] at h
  obtain ⟨-, hbounds, rfl⟩ := h
  exact hbounds

namespace Progress

variable {p next : Progress}

/-- Whether the depth that was given, if any, is one that can be asked for. -/
def HasDepthInRange (p : Progress) : Prop :=
  ∀ depth ∈ p.depth?, 1 ≤ depth ∧ depth ≤ maxDepth

theorem eq_of_once {given : Bool} {option : String} {later : Progress}
    (h : once given option later = .ok next) : next = later := by
  rw [once] at h
  split at h
  · cases h
  · exact (Except.ok.inj h).symm

theorem hasDepthInRange_of_set {setting : Setting} {value : String} (hp : p.HasDepthInRange)
    (h : p.set setting value = .ok next) : next.HasDepthInRange := by
  cases setting with
  | module =>
    obtain rfl := eq_of_once h
    exact hp
  | depth =>
    rw [set] at h
    dsimp only at h
    split at h
    · next depth hdepth =>
      obtain rfl := eq_of_once h
      intro other hother
      exact Option.some.inj hother ▸ depth?_bounds hdepth
    · cases h
  | output =>
    rw [set] at h
    dsimp only at h
    split at h
    · cases h
    · obtain rfl := eq_of_once h
      exact hp

theorem hasDepthInRange_of_turnOn {switch : Switch} (hp : p.HasDepthInRange)
    (h : p.turnOn switch = .ok next) : next.HasDepthInRange := by
  cases switch with
  | help => cases h
  | compact | verbose =>
    obtain rfl := eq_of_once h
    exact hp

theorem hasDepthInRange_of_takeInput {argument : String} (hp : p.HasDepthInRange)
    (h : p.takeInput argument = .ok next) : next.HasDepthInRange := by
  rw [takeInput] at h
  split at h
  · cases h
  · obtain rfl := Except.ok.inj h
    exact hp

theorem hasDepthInRange_of_takeLong {name : List Char} {value? : Option (List Char)}
    (hp : p.HasDepthInRange) (h : p.takeLong name value? = .ok next) :
    next.HasDepthInRange := by
  rw [takeLong.eq_def] at h
  split at h
  · cases h
  · exact hasDepthInRange_of_set hp h
  · obtain rfl := Except.ok.inj h
    exact hp
  · cases h
  · exact hasDepthInRange_of_turnOn hp h

theorem hasDepthInRange_of_takeShort {names : List Char} (hp : p.HasDepthInRange)
    (h : p.takeShort names = .ok next) : next.HasDepthInRange := by
  induction names generalizing p with
  | nil =>
    obtain rfl := Except.ok.inj h
    exact hp
  | cons c cs ih =>
    rw [takeShort.eq_def] at h
    dsimp only at h
    split at h
    · cases h
    · next switch _ =>
      cases hswitch : p.turnOn switch with
      | error stop => rw [hswitch] at h; cases h
      | ok later =>
        rw [hswitch] at h
        exact ih (hasDepthInRange_of_turnOn hp hswitch) h
    · split at h
      · obtain rfl := Except.ok.inj h
        exact hp
      · exact hasDepthInRange_of_set hp h
      · exact hasDepthInRange_of_set hp h

/-- **An argument that is taken leaves the depth in range.** -/
theorem hasDepthInRange_of_take {argument : String} (hp : p.HasDepthInRange)
    (h : p.take argument = .ok next) : next.HasDepthInRange := by
  rw [take] at h
  split at h
  · exact hasDepthInRange_of_takeInput hp h
  · split at h
    · cases h
    · exact hasDepthInRange_of_set hp h
    · obtain rfl := Except.ok.inj h
      exact hp
    · exact hasDepthInRange_of_takeLong hp h
    · exact hasDepthInRange_of_takeShort hp h
    · exact hasDepthInRange_of_takeInput hp h

theorem hasDepthInRange_of_foldlM {arguments : List String} (hp : p.HasDepthInRange)
    (h : arguments.foldlM take p = .ok next) : next.HasDepthInRange := by
  induction arguments generalizing p with
  | nil =>
    obtain rfl := Except.ok.inj h
    exact hp
  | cons argument arguments ih =>
    rw [List.foldlM_cons] at h
    cases htake : p.take argument with
    | error stop => rw [htake] at h; cases h
    | ok later =>
      rw [htake] at h
      exact ih (hasDepthInRange_of_take hp htake) h

theorem depth_bounds_of_finish {options : Options} (hp : p.HasDepthInRange)
    (h : p.finish = .ok options) : 1 ≤ options.depth ∧ options.depth ≤ maxDepth := by
  rw [finish] at h
  split at h
  · cases h
  · cases h
  · obtain rfl := Except.ok.inj h
    cases hdepth : p.depth? with
    | none => exact ⟨Nat.le_refl 1, show 1 ≤ maxDepth by decide⟩
    | some depth => exact hp depth hdepth

end Progress

/-- **Options that are understood have a depth from 1 to 64.** -/
theorem depth_bounds_of_parse {arguments : List String} {options : Options}
    (h : parse arguments = .ok options) : 1 ≤ options.depth ∧ options.depth ≤ maxDepth := by
  rw [parse] at h
  cases hprogress : arguments.foldlM Progress.take {} with
  | error stop => rw [hprogress] at h; cases h
  | ok p =>
    rw [hprogress] at h
    have hstart : Progress.HasDepthInRange {} := fun depth hdepth => by cases hdepth
    exact Progress.depth_bounds_of_finish (Progress.hasDepthInRange_of_foldlM hstart hprogress) h

end CommandLine
end DocTree
