import SovereignJedi.Pages.Components
import SovereignJedi.Registry.Hook

/-! The publish button of `RegistryPublishWidget` against the checks of the program. The button looks
at the head of the registry only; the program refuses a CID that any entry has, and a full
registry. -/

namespace SovereignJedi.Pages

open SovereignJedi.Js (UnicodeData)
open SovereignJedi.Js.UnicodeData
open SovereignJedi.Registry

variable {Pubkey Address : Type}

/-- The labels of the widget. -/
inductive RegistryStatus where
  | disconnected | networkError | notPublished | noLocalManifest | upToDate | outOfSync
  | publishedBehind
  deriving DecidableEq, Repr

/-- The memo `status`. -/
def RegistryPublishWidget.status (c : RegistryPublishWidget)
    (onChainRegistry : Option (RegistryAccount Pubkey)) : RegistryStatus :=
  if !c.view.walletPubKey.any (fun w => w != "") then .disconnected
  else if c.registryError.any (fun e => e != "") then .networkError
  else if (entriesOf onChainRegistry).length = 0 then .notPublished
  else match c.localManifestCid.filter fun cid => cid != "" with
    | none => .noLocalManifest
    | some cid =>
      if c.localManifestCid = c.onChainLatestManifestCid then .upToDate
      else if (entriesOf onChainRegistry).any fun e => e.manifestCid == cid then .publishedBehind
      else .outOfSync

/-- The publish button is enabled for `cid`, which the program would take as a CID, and the widget
shows the registry `onChainRegistry`. -/
structure RegistryPublishWidget.EnabledFor (localeCompare : String → String → Int) (d : Decoding)
    (c : RegistryPublishWidget) (onChainRegistry : Option (RegistryAccount Pubkey)) (cid : String) :
    Prop where
  canPublish : c.canPublish = true
  localManifestCid : c.localManifestCid = some cid
  valid : validateCidStrict cid = .ok ()
  head : c.onChainLatestManifestCid = Registry.onChainLatestManifestCid localeCompare
    (onChainRegistry.map fun a => decodeEntries d a.entries)

variable {localeCompare : String → String → Int} {d : Decoding} {c : RegistryPublishWidget}
  {onChainRegistry : Option (RegistryAccount Pubkey)} {cid : String}

/-- An enabled button is next to one of three labels, and the label tells whether the CID has been
published before. -/
theorem RegistryPublishWidget.EnabledFor.status_eq
    (h : c.EnabledFor localeCompare d onChainRegistry cid) :
    c.status onChainRegistry =
      if (entriesOf onChainRegistry).length = 0 then .notPublished
      else if (entriesOf onChainRegistry).any fun e => e.manifestCid == cid then .publishedBehind
      else .outOfSync := by
  have hcan := h.canPublish
  simp only [RegistryPublishWidget.canPublish, h.localManifestCid, Bool.and_eq_true,
    Option.any_some, bne_iff_ne, ne_eq, Bool.not_eq_true'] at hcan
  obtain ⟨⟨⟨⟨hwallet, hne⟩, hhead⟩, -⟩, herror⟩ := hcan
  simp only [RegistryPublishWidget.status, hwallet, herror, h.localManifestCid, hhead]
  simp [hne, Option.filter_some]

theorem RegistryPublishWidget.EnabledFor.unique_iff
    (h : c.EnabledFor localeCompare d onChainRegistry cid) :
    (∀ e ∈ entriesOf onChainRegistry, e.manifestCid ≠ cid) ↔
      c.status onChainRegistry ≠ .publishedBehind := by
  rw [h.status_eq]
  split
  · next hempty => simp [List.length_eq_zero_iff.mp hempty]
  · split
    · next hany =>
      obtain ⟨e, he, heq⟩ := List.any_eq_true.mp hany
      exact iff_of_false (fun hall => hall e he (by simpa using heq)) (by simp)
    · next hany =>
      refine iff_of_true (fun e he heq => hany ?_) (by simp)
      exact List.any_eq_true.mpr ⟨e, he, by simpa using heq⟩

variable [DecidableEq Pubkey] [DecidableEq Address] {U : UnicodeData} {rt : Runtime Pubkey Address}

/-- A publication from the enabled button is accepted exactly when the label is not "Published
(behind)" and the registry has room. -/
theorem enabled_publish_iff (hU : U.Standard) (hlower : rt.toLowercase = U.toLowercase)
    (hinj : ∀ wallet wallet' hash hash',
      rt.registryAddress wallet hash = rt.registryAddress wallet' hash' →
        wallet = wallet' ∧ hash = hash')
    {s : Accounts Pubkey Address} (hreach : Run rt (fun _ => none) s) {wallet : Pubkey}
    (h : c.EnabledFor localeCompare d (fetchRegistry U rt s wallet "local-default") cid)
    (now : Int64) :
    (∃ t, processTransaction rt s (publishManifest U rt wallet "local-default" cid 1
      (fetchRegistry U rt s wallet "local-default") now) = .ok t) ↔
    c.status (fetchRegistry U rt s wallet "local-default") ≠ .publishedBehind ∧
      (entriesOf (fetchRegistry U rt s wallet "local-default")).length < maxEntries := by
  rw [(publish_outcome hU hlower hinj hreach .refl isVaultId_sample).succeeds, ← h.unique_iff]
  constructor
  · rintro ⟨-, hpub⟩
    exact ⟨hpub.unique, hpub.room⟩
  · rintro ⟨hunique, hroom⟩
    exact ⟨id, h.valid, hunique, hroom⟩

/-- The widget of a connected wallet, for a pointer and the head that it has computed. -/
def sampleWidget (localManifestCid head : Option String) : RegistryPublishWidget where
  view := ⟨none, some "Wa11et"⟩
  localManifestCid
  listening := some (some "Wa11et")
  onChainLatestManifestCid := head
  registryError := none
  loading := false

/-- The registry with an entry for `bb`. -/
def sampleOnce : RegistryAccount Nat :=
  { sampleTwice with entries := [newEntry sampleRuntime sampleContext "bb" 1] }

theorem run_sampleTwice : Run latinRuntime (fun _ => none) (sampleRegistryOf sampleTwice) := by
  have hfirst : process latinRuntime (sampleRegistryOf (initialAccount 7 "local-default" 1700000000))
      (createAppendManifestInstruction basicLatin latinRuntime 7 "local-default" "bb" 1
        1700000000) = .ok (sampleRegistryOf sampleOnce) :=
    (process_createAppendManifestInstruction _ _ _ (fetchRegistry_sampleRegistryOf _) rfl
      sample_hash).mpr ⟨⟨by decide, fun e he => absurd he List.not_mem_nil, by decide⟩,
        Function.update_idem ..⟩
  have hsecond : process latinRuntime (sampleRegistryOf sampleOnce)
      (createAppendManifestInstruction basicLatin latinRuntime 7 "local-default" "ba" 1
        1700000000) = .ok (sampleRegistryOf sampleTwice) := by
    refine (process_createAppendManifestInstruction _ _ _ (fetchRegistry_sampleRegistryOf _) rfl
      sample_hash).mpr ⟨⟨by decide, fun e he => ?_, by decide⟩, Function.update_idem ..⟩
    rw [List.mem_singleton.mp he]
    decide
  exact ((run_of_process sample_initRegistry).trans (run_of_process hfirst)).trans
    (run_of_process hsecond)

theorem head_sampleTwice : onChainLatestManifestCid sampleCompare
    (some (decodeEntries .bn sampleTwice.entries)) = some "bb" := by
  rw [onChainLatestManifestCid, selectHead, sort,
    List.mergeSort_of_pairwise (sampleTwice_sorted .bn)]
  rfl

theorem sampleWidget_enabled {cid : String} (hcan : (sampleWidget (some cid) (some "bb")).canPublish)
    (hvalid : validateCidStrict cid = .ok ()) :
    (sampleWidget (some cid) (some "bb")).EnabledFor sampleCompare .bn
      (fetchRegistry basicLatin latinRuntime (sampleRegistryOf sampleTwice) 7 "local-default") cid := by
  refine ⟨hcan, rfl, hvalid, ?_⟩
  rw [fetchRegistry_sampleRegistryOf]
  exact head_sampleTwice.symm

/-- After two publications, a new manifest is published. -/
theorem enabled_publish_iff_sample : ∃ t, processTransaction latinRuntime
    (sampleRegistryOf sampleTwice) (publishManifest basicLatin latinRuntime 7 "local-default" "bc" 1
      (fetchRegistry basicLatin latinRuntime (sampleRegistryOf sampleTwice) 7 "local-default")
      1700000001) = .ok t := by
  have hcan : (sampleWidget (some "bc") (some "bb")).canPublish = true := by decide
  refine (enabled_publish_iff basicLatin_standard rfl (fun _ _ _ _ h => Prod.mk.inj h) run_sampleTwice
    (sampleWidget_enabled hcan (by decide)) 1700000001).mpr ?_
  rw [fetchRegistry_sampleRegistryOf]
  exact ⟨by decide, by decide⟩

/-- The pointer is back at an older entry, the button is enabled, and the program refuses. -/
theorem enabled_publish_refused :
    Run latinRuntime (fun _ => none) (sampleRegistryOf sampleTwice) ∧
    (sampleWidget (some "ba") (some "bb")).EnabledFor sampleCompare .bn
      (fetchRegistry basicLatin latinRuntime (sampleRegistryOf sampleTwice) 7 "local-default") "ba" ∧
    processTransaction latinRuntime (sampleRegistryOf sampleTwice)
      (publishManifest basicLatin latinRuntime 7 "local-default" "ba" 1
        (fetchRegistry basicLatin latinRuntime (sampleRegistryOf sampleTwice) 7 "local-default")
        1700000000) = .error (.custom .duplicateEntry) :=
  ⟨run_sampleTwice, sampleWidget_enabled (by decide) (by decide), rfl⟩

end SovereignJedi.Pages
