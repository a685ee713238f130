import NexusTier.Ops.History

/-!
# The way back from an upgrade

`upgrade` prints the images that the environment file had, as the arguments of the `rollback` that
takes them back.  `rollback_restores_iff` says when it does: after any attempts to install other
images, in an orderly history (`Orderly`), all variables read as they did before, unless an image
has quotes around it.  What is read is without one pair of quotes, so what is written back has one
pair less.

The images are to be there, in the file: without one of them, `rollback` says how it is used.
-/

set_option autoImplicit false

open Encoding

namespace NexusTier

namespace Ops

/-! ## Upgrade and rollback -/

section Rollback

open Script

variable {o : Outside} {gatewayImage controllerImage file : Bytes}

/-- The file with other images. -/
def withImages (gatewayImage controllerImage file : Bytes) : Bytes :=
  replaceEnvValue controllerImageKey controllerImage
    (replaceEnvValue gatewayImageKey gatewayImage file)

theorem imageKeys_ne : gatewayImageKey ≠ controllerImageKey := by decide +kernel

theorem isName_gatewayImageKey : IsName gatewayImageKey := isName_of_mem (by simp [managedKeys])

theorem isName_controllerImageKey : IsName controllerImageKey :=
  isName_of_mem (by simp [managedKeys])

/-- What the variables are after the images have been written. -/
theorem readEnvValue_withImages {key : Bytes} (hkey : IsName key)
    (hgateway : newline ∉ gatewayImage)
    (hcontroller : newline ∉ controllerImage) :
    readEnvValue key (withImages gatewayImage controllerImage file) =
      if key = controllerImageKey then unquote controllerImage
      else if key = gatewayImageKey then unquote gatewayImage
      else readEnvValue key file := by
  by_cases hc : key = controllerImageKey
  · rw [if_pos hc, hc]
    exact readEnvValue_replaceEnvValue isName_controllerImageKey hcontroller
  rw [if_neg hc, withImages,
    readEnvValue_replaceEnvValue_of_ne isName_controllerImageKey hkey hc hcontroller]
  by_cases hg : key = gatewayImageKey
  · rw [if_pos hg, hg]
    exact readEnvValue_replaceEnvValue isName_gatewayImageKey hgateway
  · rw [if_neg hg]
    exact readEnvValue_replaceEnvValue_of_ne isName_gatewayImageKey hkey hg hgateway

/-- All programs of `replace_env_value` do their work. -/
structure Outside.Rewrites (o : Outside) (key : Bytes) : Prop where
  mktemp : o.mktemp key = true
  grep : o.grepStops key = none
  printf : o.printf key = true
  cat : o.cat key = .done
  rm : o.rm key = true

theorem replace_on_of_rewrites {key value : Bytes} (h : o.Rewrites key)
    (htext : ∀ line ∈ lines file, o.isText line = true) :
    (replace o key value).on file = (.ok (), replaceEnvValue key value file) := by
  rw [replace, h.mktemp, h.printf, h.cat, h.rm, ← temporary_eq h.grep htext]
  rfl

theorem replace_bind_on {α : Type} {key value : Bytes} {f : Unit → Script α} (h : o.Rewrites key)
    (htext : ∀ line ∈ lines file, o.isText line = true) :
    (replace o key value >>= f).on file = (f ()).on (replaceEnvValue key value file) := by
  rw [on_bind, replace_on_of_rewrites h htext]

/-- Once both images are written, nothing more happens to the file. -/
theorem installImages_on (hgateway : o.Rewrites gatewayImageKey)
    (hcontroller : o.Rewrites controllerImageKey)
    (htext : ∀ line ∈ lines file, o.isText line = true) (hfree : newline ∉ gatewayImage)
    (hline : o.isText (gatewayImageKey ++ equals :: gatewayImage) = true) :
    ((installImages o gatewayImage controllerImage).on file).2 =
      withImages gatewayImage controllerImage file := by
  have hrest : Keeps (fun file' => file' = withImages gatewayImage controllerImage file)
      (do
        compose o "config --quiet"
        compose o "pull gateway controller"
        compose o "up -d gateway controller"
        ensure o.verified .notVerified) :=
    keeps_then (keeps_ensure _ _) <| keeps_then (keeps_ensure _ _) <|
      keeps_then (keeps_ensure _ _) (keeps_ensure _ _)
  rw [installImages, replace_bind_on hgateway htext,
    replace_bind_on hcontroller (text_replaceEnvValue isName_gatewayImageKey hfree htext hline)]
  exact hrest _ rfl

/-- A rollback that is confirmed, and that can write the file. -/
structure Outside.Writable (o : Outside) : Prop where
  envFile : o.envFileExists = true
  confirmed : o.confirmed = true
  gateway : o.Rewrites gatewayImageKey
  controller : o.Rewrites controllerImageKey

theorem ensure_bind_on {α : Type} {ok : Bool} {e : OpsError} {f : Unit → Script α}
    (h : ok = true) : (ensure ok e >>= f).on file = (f ()).on file := by
  rw [on_bind, on_ensure, h]
  rfl

theorem cmdRollback_on (ho : o.Writable) (hgateway : gatewayImage ≠ [])
    (hcontroller : controllerImage ≠ []) (htext : ∀ line ∈ lines file, o.isText line = true)
    (hfree : newline ∉ gatewayImage)
    (hline : o.isText (gatewayImageKey ++ equals :: gatewayImage) = true) :
    ((cmdRollback o gatewayImage controllerImage).on file).2 =
      withImages gatewayImage controllerImage file := by
  rw [cmdRollback, ensure_bind_on (decide_eq_true ⟨hgateway, hcontroller⟩), requireEnvFile,
    ensure_bind_on ho.envFile, confirm, ensure_bind_on ho.confirmed]
  exact installImages_on ho.gateway ho.controller htext hfree hline

/-- What an upgrade prints is what it has found. -/
theorem cmdUpgrade_prints {printed : Bytes × Bytes}
    (h : ((cmdUpgrade o gatewayImage controllerImage).on file).1 = .ok printed) :
    printed = (readEnvValue gatewayImageKey file, readEnvValue controllerImageKey file) := by
  simp only [cmdUpgrade, requireEnvFile, confirm, ensure_bind_eq_ok, on_read_bind] at h
  obtain ⟨-, -, -, h⟩ := h
  rw [on_bind] at h
  generalize (installImages o gatewayImage controllerImage).on file = result at h
  obtain ⟨r, file'⟩ := result
  cases r with
  | ok u => exact (Except.ok.inj h).symm
  | error e => cases h

/-- An attempt to install other images. -/
def Command.InstallsImages : Command → Prop
  | upgrade _ _ | rollback _ _ => True
  | _ => False

/-- Such an attempt writes images only. -/
theorem Command.InstallsImages.key_of_writes {command : Command} (h : command.InstallsImages)
    {key value : Bytes} (hwrites : command.Writes o key value) :
    key = gatewayImageKey ∨ key = controllerImageKey := by
  cases command with
  | preflight | deploy | rotateToken | rotateConsolePassword => exact h.elim
  | upgrade | rollback => exact hwrites.imp And.left And.left

/-- A rollback to the images that the file has now. -/
def rollbackTo (file : Bytes) : Command :=
  .rollback (readEnvValue gatewayImageKey file) (readEnvValue controllerImageKey file)

/-- What attempts and a rollback to the old images make of the variables. -/
theorem readEnvValue_rollback {attempts : List (Outside × Command)}
    (hattempts : ∀ e ∈ attempts, e.2.InstallsImages)
    (hgateway : readEnvValue gatewayImageKey file ≠ [])
    (hcontroller : readEnvValue controllerImageKey file ≠ []) (ho : o.Writable)
    (h : Orderly file (attempts ++ [(o, rollbackTo file)])) {key : Bytes} (hkey : IsName key) :
    readEnvValue key (history file (attempts ++ [(o, rollbackTo file)])) =
      if key = controllerImageKey then unquote (readEnvValue controllerImageKey file)
      else if key = gatewayImageKey then unquote (readEnvValue gatewayImageKey file)
      else readEnvValue key file := by
  have hlast : (o, rollbackTo file) ∈ attempts ++ [(o, rollbackTo file)] := by simp
  -- what the attempts have not touched
  have hothers := h.keeps (List.subset_append_left attempts _)
    (P := fun file' => key ≠ gatewayImageKey → key ≠ controllerImageKey →
      readEnvValue key file' = readEnvValue key file) (by
    intro e he key' value hwrites file' hP hg hc
    have hname : IsName key' := isName_of_mem (by simp [mem_managedKeys_of_writes hwrites])
    have hne : key ≠ key' := by
      obtain rfl | rfl := (hattempts e he).key_of_writes hwrites
      · exact hg
      · exact hc
    rw [← hP hg hc]
    exact readEnvValue_replaceEnvValue_of_ne hname hkey hne
      (h.written e (List.mem_append_left _ he) key' value hwrites).1) fun _ _ => rfl
  have hline := (h.written _ hlast gatewayImageKey _ (.inl ⟨rfl, rfl⟩)).2 _ hlast
  have hrolled : history file (attempts ++ [(o, rollbackTo file)]) = withImages
      (readEnvValue gatewayImageKey file) (readEnvValue controllerImageKey file)
        (history file attempts) := by
    rw [history, List.foldl_append]
    exact cmdRollback_on ho hgateway hcontroller (hothers.1 _ hlast) newline_not_mem_readEnvValue
      hline
  rw [hrolled, readEnvValue_withImages hkey newline_not_mem_readEnvValue
    newline_not_mem_readEnvValue]
  split
  · rfl
  · split
    · rfl
    · next hc hg => exact hothers.2 hg hc

/-- **Rollback restores.**  An upgrade prints the images that the file had.  Whatever upgrades and
rollbacks are tried, in an orderly way and however they end, a rollback to these images that is
confirmed and can write leaves all variables as they were before, exactly if the images have no
quotes around them. -/
theorem rollback_restores_iff {attempts : List (Outside × Command)}
    (hattempts : ∀ e ∈ attempts, e.2.InstallsImages)
    (hgateway : readEnvValue gatewayImageKey file ≠ [])
    (hcontroller : readEnvValue controllerImageKey file ≠ []) :
    (∀ (o : Outside) (newGateway newController : Bytes) (printed : Bytes × Bytes),
      ((cmdUpgrade o newGateway newController).on file).1 = .ok printed →
        printed = (readEnvValue gatewayImageKey file, readEnvValue controllerImageKey file)) ∧
    ∀ o : Outside, o.Writable → Orderly file (attempts ++ [(o, rollbackTo file)]) →
      ((∀ key, IsName key → readEnvValue key (history file (attempts ++ [(o, rollbackTo file)])) =
          readEnvValue key file) ↔
        unquote (readEnvValue gatewayImageKey file) = readEnvValue gatewayImageKey file ∧
          unquote (readEnvValue controllerImageKey file) =
            readEnvValue controllerImageKey file) := by
  refine ⟨fun o newGateway newController printed => cmdUpgrade_prints, fun o ho h => ?_⟩
  have hread : ∀ {key}, IsName key → _ := fun {key} hkey =>
    @readEnvValue_rollback o file attempts hattempts hgateway hcontroller ho h key hkey
  constructor
  · intro hall
    have hg := hall gatewayImageKey isName_gatewayImageKey
    have hc := hall controllerImageKey isName_controllerImageKey
    rw [hread isName_gatewayImageKey, if_neg imageKeys_ne, if_pos rfl] at hg
    rw [hread isName_controllerImageKey, if_pos rfl] at hc
    exact ⟨hg, hc⟩
  · rintro ⟨hg, hc⟩ key hkey
    rw [hread hkey, hg, hc]
    split
    · next heq => rw [heq]
    · split
      · next heq => rw [heq]
      · rfl

end Rollback

/-! ### An upgrade that fails -/

/-- A file in which an image has quotes inside of quotes. -/
def quotedFile : Bytes :=
  unlines
    [gatewayImageKey ++ ascii "='\"gateway:1\"'", controllerImageKey ++ ascii "=controller:1"]

theorem orderly_rollback (file : Bytes) :
    Orderly file ([failedUpgrade] ++ [(steady, rollbackTo file)]) := by
  have htext : ∀ e ∈ [failedUpgrade] ++ [(steady, rollbackTo file)], ∀ line,
      e.1.isText line = true := by
    simp [failedUpgrade, steady]
  refine ⟨?_, fun e he line _ => htext e he line, fun e he key value hwrites =>
    ⟨?_, fun e' he' => htext e' he' _⟩⟩
  · simp only [List.cons_append, List.nil_append, List.forall_mem_cons, List.not_mem_nil,
      false_implies, implies_true, and_true]
    exact ⟨completes_failedUpgrade, completes_steady⟩
  · rcases List.mem_append.1 he with he | he
    · obtain rfl := List.mem_singleton.1 he
      rcases hwrites with ⟨-, rfl⟩ | ⟨-, rfl⟩ <;> decide +kernel
    · obtain rfl := List.mem_singleton.1 he
      rcases hwrites with ⟨-, rfl⟩ | ⟨-, rfl⟩ <;> exact newline_not_mem_readEnvValue

theorem rollback_restores_iff_failedUpgrade :
    readEnvValue gatewayImageKey (history operatorFile [failedUpgrade]) = ascii "gateway:2" ∧
      readEnvValue gatewayImageKey (history operatorFile
        ([failedUpgrade] ++ [(steady, rollbackTo operatorFile)])) = ascii "gateway:1" ∧
      ¬ ∀ key, IsName key → readEnvValue key (history quotedFile
        ([failedUpgrade] ++ [(steady, rollbackTo quotedFile)])) = readEnvValue key quotedFile := by
  have hattempts : ∀ e ∈ [failedUpgrade], e.2.InstallsImages :=
    List.forall_mem_singleton.2 trivial
  have hrewrites : ∀ key, steady.Rewrites key := fun _ => ⟨rfl, rfl, rfl, rfl, rfl⟩
  have hwritable : steady.Writable := ⟨rfl, rfl, hrewrites _, hrewrites _⟩
  have hgateway : readEnvValue gatewayImageKey operatorFile = ascii "gateway:1" := by
    decide +kernel
  have hcontroller : readEnvValue controllerImageKey operatorFile = ascii "controller:1" := by
    decide +kernel
  have hquoted : readEnvValue gatewayImageKey quotedFile = ascii "\"gateway:1\"" := by
    decide +kernel
  have hcontroller' : readEnvValue controllerImageKey quotedFile = ascii "controller:1" := by
    decide +kernel
  refine ⟨by decide +kernel, ?_, fun hall => ?_⟩
  · obtain ⟨-, hrestores⟩ := @rollback_restores_iff operatorFile _ hattempts
      (by rw [hgateway]; decide) (by rw [hcontroller]; decide)
    have hall := (hrestores steady hwritable (orderly_rollback operatorFile)).2
      ⟨by rw [hgateway]; decide +kernel, by rw [hcontroller]; decide +kernel⟩
    exact (hall _ isName_gatewayImageKey).trans hgateway
  · obtain ⟨-, hrestores⟩ := @rollback_restores_iff quotedFile _ hattempts
      (by rw [hquoted]; decide) (by rw [hcontroller']; decide)
    have hiff := hrestores steady hwritable (orderly_rollback quotedFile)
    rw [hquoted, hcontroller'] at hiff
    exact absurd (hiff.1 hall).1 (by decide +kernel)

end Ops

end NexusTier
