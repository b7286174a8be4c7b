import FontisRemote.Connection.Subscriptions

/-!
# Permissions and subscriptions agree

Once the services of a desktop session have been subscribed to, its subscriptions to the clipboard, the
file clipboard, the audio and the cursor are what the permissions of this side and the options of the
peer's say (`Conn.Agrees`), as long as no change of a flag forgets one of them (`Forgets`). Each service
is looked at on its own (`Guard.Fits`): a change of flags either subscribes to it anew or leaves both the
subscription and what it should be alone.
-/

namespace FontisRemote.Connection

open FontisRemote.Lib FontisRemote.Login
open FontisRemote.Video (VideoSource)

/-- The services that are guarded by permissions and options. -/
def guardedServices : List Service := [.clipboard, .fileClipboard, .audio, .cursor]

namespace Guard

variable {b : Build} {g g' : Guard} {s : Service}

/-- No revocation of the service is missed. -/
def Heard (b : Build) (s : Service) (g : Guard) : Prop := b.has s = true → g.swapping s = false

/-- Before the services are subscribed to there may be fewer subscriptions than there should be, but
never more; afterwards they are the same. -/
structure Fits (b : Build) (s : Service) (g : Guard) : Prop where
  heard : Heard b s g
  wanted : b.has s = true → g.subs s = true → g.wants b s = true
  same : b.has s = true → g.servicesSubed = true → g.subs s = g.wants b s

theorem Heard.subscribe {t : Service} {v : Bool} (h : Heard b s g) : Heard b s (g.subscribe b t v) :=
  fun hb => g.subscribe_swapping (h hb)

theorem Fits.of_eq (h : Heard b s g) (heq : b.has s = true → g.subs s = g.wants b s) : Fits b s g :=
  ⟨h, fun hb hsub => heq hb ▸ hsub, fun hb _ => heq hb⟩

theorem fits_resub (h : Heard b s g) : Fits b s (g.resub b s) := by
  refine .of_eq h.subscribe fun hb => ?_
  rw [resub, g.subscribe_subs_self hb (.inr (h hb)), wants_subscribe]

theorem Fits.keep (h : Fits b s g) (hsubs : g'.subs s = g.subs s)
    (hwants : b.has s = true → g'.wants b s = g.wants b s)
    (hstarted : g'.servicesSubed = g.servicesSubed) (hheard : Heard b s g') : Fits b s g' := by
  refine ⟨hheard, fun hb => ?_, fun hb => ?_⟩
  · rw [hsubs, hwants hb]
    exact h.wanted hb
  · rw [hsubs, hwants hb, hstarted]
    exact h.same hb

theorem Fits.subscribe_ne {t : Service} {v : Bool} (h : Fits b s g) (hne : s ≠ t) :
    Fits b s (g.subscribe b t v) :=
  h.keep (subscribe_subs_of_ne g hne) (fun _ => by simp) (by simp) h.heard.subscribe

theorem Fits.resubAudio_ne (h : Fits b s g) (hne : s ≠ .audio) : Fits b s (g.resubAudio b) := by
  rcases resubAudio_eq b g with heq | ⟨v, heq⟩
  · rwa [heq]
  · rw [heq]
    exact h.subscribe_ne hne

theorem resubAudio_of_ne (h : g.authed ≠ some .viewCamera) : g.resubAudio b = g.resub b .audio :=
  if_neg h

/-- A switch after which a service is not what it should be: the keyboard is switched on although the
peer has disabled it, and the cursor follows the switch; or the clipboard is switched, and the file
clipboard is forgotten. -/
def ForgetsSwitch (b : Build) (g : Guard) (name : Permission) (enabled : Bool) : Prop :=
  match name with
  | .keyboard => b.has .cursor = true ∧ enabled = true ∧ g.disableKeyboard = true ∧
      g.showRemoteCursor = false
  | .clipboard => b.has .fileClipboard = true ∧ enabled ≠ g.clipboard ∧ g.disableClipboard = false ∧
      g.file = true ∧ g.enableFileTransfer = true ∧ b.oneWayFileTransfer = false
  | _ => False

/-- The file transfer of the clipboard after the option. -/
def enabledBy (b : Build) (g : Guard) (o : OptionMessage) : Bool :=
  (if b.windows || b.unixFileCopyPaste then setValue o.enableFileTransfer else none).getD
    g.enableFileTransfer

/-- An option that disables or enables the clipboard and forgets the file clipboard. -/
def ForgetsOption (b : Build) (g : Guard) (o : OptionMessage) : Prop :=
  b.has .fileClipboard = true ∧ setValue o.disableKeyboard = none ∧
    (∃ v, setValue o.disableClipboard = some v ∧ v ≠ g.disableClipboard) ∧ g.clipboard = true ∧
    g.file = true ∧ g.enabledBy b o = true ∧ b.oneWayFileTransfer = false

theorem Fits.switch (h : ∀ s ∈ guardedServices, Fits b s g) (hcam : g.authed ≠ some .viewCamera)
    {authorized : Bool} (hsilent : authorized = false → g.subs .audio = false ∧ g.servicesSubed = false)
    {name : Permission} {enabled : Bool} (hf : ¬g.ForgetsSwitch b name enabled) :
    ∀ s ∈ guardedServices, Fits b s (g.switch b authorized name enabled) := by
  intro s hs
  have hfit := h s hs
  simp only [guardedServices, List.mem_cons, List.not_mem_nil, or_false] at hs
  cases name with
  | keyboard =>
    rcases hs with rfl | rfl | rfl | rfl
    · refine ((fits_resub ?_).subscribe_ne (by decide)).subscribe_ne (by decide)
      exact hfit.heard
    · refine (fits_resub (Heard.subscribe ?_)).subscribe_ne (by decide)
      exact hfit.heard
    · refine ((Fits.subscribe_ne ?_ (by decide)).subscribe_ne (by decide)).subscribe_ne (by decide)
      exact hfit.keep rfl (fun _ => rfl) rfl hfit.heard
    · have hheard : Heard b .cursor ((({ g with keyboard := enabled } : Guard).resub b .clipboard).resub b
          .fileClipboard) := Heard.subscribe (Heard.subscribe hfit.heard)
      refine .of_eq hheard.subscribe fun hb => ?_
      unfold Guard.switch
      dsimp only
      rw [subscribe_subs_self _ hb (.inr (hheard hb))]
      simp only [wants, resub, subscribe_keyboard, subscribe_disableKeyboard,
        subscribe_showRemoteCursor]
      cases enabled with
      | false => simp
      | true =>
        cases hk : g.disableKeyboard with
        | false => simp
        | true =>
          cases hw : g.showRemoteCursor with
          | true => simp
          | false => exact absurd ⟨hb, rfl, hk, hw⟩ hf
  | clipboard =>
    rcases hs with rfl | rfl | rfl | rfl
    · refine fits_resub ?_
      exact hfit.heard
    · refine Fits.subscribe_ne ?_ (by decide)
      have hw : b.has .fileClipboard = true →
          ({ g with clipboard := enabled } : Guard).wants b .fileClipboard = g.wants b .fileClipboard := by
        intro hb
        by_contra hne
        refine hf ⟨hb, ?_, ?_⟩
        · rintro rfl
          exact hne rfl
        · revert hne
          simp only [wants]
          cases g.disableClipboard <;> cases g.file <;> cases g.enableFileTransfer <;>
            cases b.oneWayFileTransfer <;> simp
      exact hfit.keep rfl hw rfl hfit.heard
    · exact Fits.subscribe_ne (hfit.keep rfl (fun _ => rfl) rfl hfit.heard) (by decide)
    · exact Fits.subscribe_ne (hfit.keep rfl (fun _ => rfl) rfl hfit.heard) (by decide)
  | audio =>
    unfold Guard.switch
    dsimp only
    split
    · rcases hs with rfl | rfl | rfl | rfl
      · exact Fits.resubAudio_ne (hfit.keep rfl (fun _ => rfl) rfl hfit.heard) (by decide)
      · exact Fits.resubAudio_ne (hfit.keep rfl (fun _ => rfl) rfl hfit.heard) (by decide)
      · have heq : Guard.resubAudio b { g with audio := enabled } =
            Guard.resub b .audio { g with audio := enabled } := resubAudio_of_ne hcam
        rw [heq]
        refine fits_resub ?_
        exact hfit.heard
      · exact Fits.resubAudio_ne (hfit.keep rfl (fun _ => rfl) rfl hfit.heard) (by decide)
    · rename_i ha
      obtain ⟨hoff, hstart⟩ := hsilent (by simpa using ha)
      rcases hs with rfl | rfl | rfl | rfl
      · exact hfit.keep rfl (fun _ => rfl) rfl hfit.heard
      · exact hfit.keep rfl (fun _ => rfl) rfl hfit.heard
      · refine ⟨hfit.heard, fun _ hsub => ?_, fun _ hst => ?_⟩
        · exact absurd (hoff.symm.trans hsub) (by simp)
        · exact absurd (hstart.symm.trans hst) (by simp)
      · exact hfit.keep rfl (fun _ => rfl) rfl hfit.heard
  | file =>
    rcases hs with rfl | rfl | rfl | rfl
    · exact Fits.subscribe_ne (hfit.keep rfl (fun _ => rfl) rfl hfit.heard) (by decide)
    · refine fits_resub ?_
      exact hfit.heard
    · exact Fits.subscribe_ne (hfit.keep rfl (fun _ => rfl) rfl hfit.heard) (by decide)
    · exact Fits.subscribe_ne (hfit.keep rfl (fun _ => rfl) rfl hfit.heard) (by decide)
  | restart | recording | blockInput | privacyMode => exact hfit

/-- The clipboard, the audio and the cursor are subscribed to anew whenever an option changes what they
should be. -/
theorem Fits.options_of_ne (h : Fits b s g) (hs : s ∈ guardedServices) (hne : s ≠ .fileClipboard)
    (hcam : g.authed ≠ some .viewCamera) (o : OptionMessage) : Fits b s (g.options b o) := by
  have hboth : (g.options b o).authed ≠ some .viewCamera ∧ Fits b s (g.options b o) := by
    simp only [guardedServices, List.mem_cons, List.not_mem_nil, or_false] at hs
    refine options_induct (P := fun g => g.authed ≠ some .viewCamera ∧ Fits b s g) o ⟨hcam, h⟩
      ?_ ?_ ?_ ?_ ?_ ?_
    · rintro v g ⟨hcam, hfit⟩
      refine ⟨by simpa [setShowRemoteCursor] using hcam, Fits.subscribe_ne ?_ ?_⟩
      · rcases hs with rfl | rfl | rfl | rfl
        · exact Fits.subscribe_ne (hfit.keep rfl (fun _ => rfl) rfl hfit.heard) (by decide)
        · exact absurd rfl hne
        · exact Fits.subscribe_ne (hfit.keep rfl (fun _ => rfl) rfl hfit.heard) (by decide)
        · refine fits_resub ?_
          exact hfit.heard
      · rcases hs with rfl | rfl | rfl | rfl <;> decide
    · rintro v g ⟨hcam, hfit⟩
      refine ⟨by simpa [setFollowRemoteWindow] using hcam, hfit.subscribe_ne ?_⟩
      rcases hs with rfl | rfl | rfl | rfl <;> decide
    · rintro v g ⟨hcam, hfit⟩
      refine ⟨by simpa [setDisableAudio] using hcam, ?_⟩
      have heq : Guard.resubAudio b { g with disableAudio := v } =
          Guard.resub b .audio { g with disableAudio := v } := resubAudio_of_ne hcam
      simp only [setDisableAudio, heq]
      rcases hs with rfl | rfl | rfl | rfl
      · exact Fits.subscribe_ne (hfit.keep rfl (fun _ => rfl) rfl hfit.heard) (by decide)
      · exact absurd rfl hne
      · refine fits_resub ?_
        exact hfit.heard
      · exact Fits.subscribe_ne (hfit.keep rfl (fun _ => rfl) rfl hfit.heard) (by decide)
    · rintro v g ⟨hcam, hfit⟩
      refine ⟨by simpa [setEnableFileTransfer] using hcam, ?_⟩
      refine Fits.subscribe_ne ?_ hne
      rcases hs with rfl | rfl | rfl | rfl
      · exact hfit.keep rfl (fun _ => rfl) rfl hfit.heard
      · exact absurd rfl hne
      · exact hfit.keep rfl (fun _ => rfl) rfl hfit.heard
      · exact hfit.keep rfl (fun _ => rfl) rfl hfit.heard
    · rintro v g ⟨hcam, hfit⟩
      refine ⟨by simpa [setDisableClipboard] using hcam, ?_⟩
      rcases hs with rfl | rfl | rfl | rfl
      · refine fits_resub ?_
        exact hfit.heard
      · exact absurd rfl hne
      · exact Fits.subscribe_ne (hfit.keep rfl (fun _ => rfl) rfl hfit.heard) (by decide)
      · exact Fits.subscribe_ne (hfit.keep rfl (fun _ => rfl) rfl hfit.heard) (by decide)
    · rintro v g ⟨hcam, hfit⟩
      refine ⟨by simpa [setDisableKeyboard] using hcam, ?_⟩
      rcases hs with rfl | rfl | rfl | rfl
      · refine ((fits_resub ?_).subscribe_ne (by decide)).subscribe_ne (by decide)
        exact hfit.heard
      · exact absurd rfl hne
      · refine ((Fits.subscribe_ne ?_ (by decide)).subscribe_ne (by decide)).subscribe_ne (by decide)
        exact hfit.keep rfl (fun _ => rfl) rfl hfit.heard
      · refine fits_resub (Heard.subscribe (Heard.subscribe ?_))
        exact hfit.heard
  exact hboth.2

/-- What decides about the file clipboard. -/
structure SameFiles (g g' : Guard) : Prop where
  clipboard : g'.clipboard = g.clipboard
  file : g'.file = g.file
  disableClipboard : g'.disableClipboard = g.disableClipboard
  enableFileTransfer : g'.enableFileTransfer = g.enableFileTransfer
  servicesSubed : g'.servicesSubed = g.servicesSubed
  subs : g'.subs .fileClipboard = g.subs .fileClipboard
  heard : g.swapping .fileClipboard = false → g'.swapping .fileClipboard = false

theorem SameFiles.wants (h : SameFiles g g') : g'.wants b .fileClipboard = g.wants b .fileClipboard := by
  simp only [Guard.wants, h.clipboard, h.file, h.disableClipboard, h.enableFileTransfer]

theorem SameFiles.trans {g₁ : Guard} (h : SameFiles g g') (h' : SameFiles g' g₁) : SameFiles g g₁ where
  clipboard := h'.clipboard.trans h.clipboard
  file := h'.file.trans h.file
  disableClipboard := h'.disableClipboard.trans h.disableClipboard
  enableFileTransfer := h'.enableFileTransfer.trans h.enableFileTransfer
  servicesSubed := h'.servicesSubed.trans h.servicesSubed
  subs := h'.subs.trans h.subs
  heard hs := h'.heard (h.heard hs)

theorem SameFiles.subscribe {t : Service} {v : Bool} (ht : .fileClipboard ≠ t) :
    SameFiles g (g.subscribe b t v) where
  clipboard := subscribe_clipboard ..
  file := subscribe_file ..
  disableClipboard := subscribe_disableClipboard ..
  enableFileTransfer := subscribe_enableFileTransfer ..
  servicesSubed := subscribe_servicesSubed ..
  subs := subscribe_subs_of_ne g ht
  heard := g.subscribe_swapping

theorem SameFiles.resubAudio : SameFiles g (g.resubAudio b) := by
  rcases resubAudio_eq b g with heq | ⟨v, heq⟩
  · rw [heq]
    exact ⟨rfl, rfl, rfl, rfl, rfl, rfl, id⟩
  · rw [heq]
    exact .subscribe (by decide)

/-- The options that come before the ones about files. -/
theorem SameFiles.leading (cursor window audio : Option Bool) : SameFiles g
    (g.setShowRemoteCursor b cursor |>.setFollowRemoteWindow b window |>.setDisableAudio b audio) := by
  have hcursor : SameFiles g (g.setShowRemoteCursor b cursor) := by
    cases cursor with
    | none => exact ⟨rfl, rfl, rfl, rfl, rfl, rfl, id⟩
    | some v =>
      have hflag : SameFiles g { g with showRemoteCursor := v } := ⟨rfl, rfl, rfl, rfl, rfl, rfl, id⟩
      exact (hflag.trans (.subscribe (by decide))).trans (.subscribe (by decide))
  have hwindow : ∀ g : Guard, SameFiles g (g.setFollowRemoteWindow b window) := by
    intro g
    cases window with
    | none => exact ⟨rfl, rfl, rfl, rfl, rfl, rfl, id⟩
    | some v => exact .subscribe (by decide)
  have haudio : ∀ g : Guard, SameFiles g (g.setDisableAudio b audio) := by
    intro g
    cases audio with
    | none => exact ⟨rfl, rfl, rfl, rfl, rfl, rfl, id⟩
    | some v =>
      have hflag : SameFiles g { g with disableAudio := v } := ⟨rfl, rfl, rfl, rfl, rfl, rfl, id⟩
      exact hflag.trans .resubAudio
  exact (hcursor.trans (hwindow _)).trans (haudio _)

theorem Fits.options_file (h : Fits b .fileClipboard g) {o : OptionMessage}
    (hf : ¬g.ForgetsOption b o) : Fits b .fileClipboard (g.options b o) := by
  have hlead := SameFiles.leading (b := b) (g := g) (if b.mobile then none else setValue o.showRemoteCursor)
    (setValue o.followRemoteWindow) (setValue o.disableAudio)
  unfold Guard.options
  generalize (Guard.setDisableAudio b _ _) = g₁ at hlead ⊢
  have hfit₁ : Fits b .fileClipboard g₁ := h.keep hlead.subs (fun _ => hlead.wants) hlead.servicesSubed
    fun hb => hlead.heard (h.heard hb)
  have hfit₂ : ∀ v, Fits b .fileClipboard (g₁.setEnableFileTransfer b v) := by
    intro v
    cases v with
    | none => exact hfit₁
    | some v =>
      refine fits_resub ?_
      exact hfit₁.heard
  have hheard₃ : ∀ v v', Heard b .fileClipboard
      ((g₁.setEnableFileTransfer b v).setDisableClipboard b v') := by
    intro v v'
    cases v' with
    | none => exact (hfit₂ v).heard
    | some v' => exact Heard.subscribe (hfit₂ v).heard
  cases hkey : setValue o.disableKeyboard with
  | some v =>
    refine (fits_resub (Heard.subscribe ?_)).subscribe_ne (by decide)
    exact hheard₃ _ _
  | none =>
    cases hclip : setValue o.disableClipboard with
    | none => exact hfit₂ _
    | some v =>
      refine Fits.subscribe_ne ?_ (by decide)
      have hen : ∀ v, (g₁.setEnableFileTransfer b v).enableFileTransfer =
          v.getD g.enableFileTransfer := by
        intro v
        cases v with
        | none => exact hlead.enableFileTransfer
        | some v => exact subscribe_enableFileTransfer ..
      have hrest : ∀ v, (g₁.setEnableFileTransfer b v).clipboard = g.clipboard ∧
          (g₁.setEnableFileTransfer b v).file = g.file ∧
          (g₁.setEnableFileTransfer b v).disableClipboard = g.disableClipboard := by
        intro v
        rw [← hlead.clipboard, ← hlead.file, ← hlead.disableClipboard]
        cases v with
        | none => exact ⟨rfl, rfl, rfl⟩
        | some v =>
          exact ⟨subscribe_clipboard .., subscribe_file .., subscribe_disableClipboard ..⟩
      refine (hfit₂ _).keep rfl (fun hb => ?_) rfl (hfit₂ _).heard
      by_contra hne
      refine hf ⟨hb, hkey, ⟨v, hclip, ?_⟩, ?_⟩
      · rintro rfl
        apply hne
        simp only [Guard.wants, (hrest _).2.2]
      · revert hne
        simp only [Guard.wants, hen, hrest, enabledBy]
        generalize Option.getD _ _ = en
        cases g.clipboard <;> cases g.file <;> cases b.oneWayFileTransfer <;> cases en <;> simp

theorem Fits.options (h : ∀ s ∈ guardedServices, Fits b s g) (hcam : g.authed ≠ some .viewCamera)
    {o : OptionMessage} (hf : ¬g.ForgetsOption b o) :
    ∀ s ∈ guardedServices, Fits b s (g.options b o) := by
  intro s hs
  by_cases hne : s = .fileClipboard
  · subst hne
    exact (h _ hs).options_file hf
  · exact (h s hs).options_of_ne hs hne hcam o

theorem Fits.shows {src : VideoSource} (h : Fits b s g) (hs : s ∈ guardedServices)
    (hshows : Desk.Shows src g g') : Fits b s g' := by
  have hsubs : g'.subs s = g.subs s := by
    simp only [guardedServices, List.mem_cons, List.not_mem_nil, or_false] at hs
    rcases hs with rfl | rfl | rfl | rfl <;> exact hshows.others _ rfl (by decide)
  refine h.keep hsubs (fun _ => ?_) ?_ fun hb => hshows.swaps s (h.heard hb)
  · rw [hshows.flags]
    rfl
  · rw [hshows.flags]

/-- The services are subscribed to that should be; none was subscribed to that should not. -/
theorem Fits.starts (h : Fits b s g) (hs : s ∈ guardedServices) (hstarts : Desk.Starts b g g') :
    Fits b s g' := by
  have hheard : Heard b s g' := by
    rw [hstarts.flags]
    exact h.heard
  refine .of_eq hheard fun hb => ?_
  have hwants : g'.wants b s = g.wants b s := by
    rw [hstarts.flags]
    rfl
  rw [hstarts.guarded s hs hb, hwants]
  cases hw : g.wants b s with
  | true => rfl
  | false =>
    rw [Bool.false_or, Bool.eq_false_iff]
    intro hsub
    rw [h.wanted hb hsub] at hw
    cases hw

/-- A connection that is not authorized hears nothing, and its services are not subscribed to. -/
structure Sound (b : Build) (g : Guard) : Prop where
  fits : g.authed = none ∨ g.authed = some .remote → ∀ s ∈ guardedServices, Fits b s g
  silent : g.authed = none → g.subs .audio = false
  unsubed : g.authed = none → g.servicesSubed = false

theorem Sound.fresh (hsubs : g.subs = fun _ => false)
    (hswaps : g.swapping = fun _ => false) (hstart : g.servicesSubed = false) : Sound b g where
  fits _ s _ := by
    refine ⟨fun _ => by rw [hswaps], fun _ hs => ?_, fun _ hs => ?_⟩
    · rw [hsubs] at hs
      cases hs
    · rw [hstart] at hs
      cases hs
  silent _ := by rw [hsubs]
  unsubed _ := hstart

theorem Sound.of_limited {t : AuthConnType} (h : g.authed = some t) (ht : t ≠ .remote) : Sound b g where
  fits hty := by
    rcases hty with hty | hty
    · rw [h] at hty
      cases hty
    · rw [h] at hty
      exact absurd (Option.some.inj hty) ht
  silent hn := by
    rw [h] at hn
    cases hn
  unsubed hn := by
    rw [h] at hn
    cases hn

theorem Sound.of_remote (h : g.authed = some .remote) (hfits : ∀ s ∈ guardedServices, Fits b s g) :
    Sound b g where
  fits _ := hfits
  silent hn := by
    rw [h] at hn
    cases hn
  unsubed hn := by
    rw [h] at hn
    cases hn

theorem Sound.calls (h : Sound b g) (hc : g.Calls b g') : Sound b g' := by
  cases hc with
  | same => exact h
  | calls v => exact ⟨fun hty s hs => (h.fits hty s hs).keep rfl (fun _ => rfl) rfl (h.fits hty s hs).heard, h.silent, h.unsubed⟩
  | audio type _ =>
    refine .of_limited (t := .viewCamera) ?_ (by decide)
    rw [subscribe_authed]
    exact type

theorem Sound.switch (h : Sound b g) {authorized : Bool} (hauth : authorized = g.authed.isSome)
    {name : Permission} {enabled : Bool} (hf : ¬g.ForgetsSwitch b name enabled) :
    Sound b (g.switch b authorized name enabled) := by
  have hauthed := g.switch_authed (b := b) authorized name enabled
  have hoff : g.authed = none → authorized = false := by
    intro hn
    rw [hauth, hn]
    rfl
  refine ⟨fun hty => ?_, fun hn => ?_, fun hn => ?_⟩
  · rw [hauthed] at hty
    refine Fits.switch (h.fits hty) (fun hcam => ?_) (fun ha => ?_) hf
    · rw [hcam] at hty
      simp at hty
    · have hn : g.authed = none := by
        rw [hauth] at ha
        exact Option.not_isSome_iff_eq_none.1 (by simp [ha])
      exact ⟨h.silent hn, h.unsubed hn⟩
  · rw [hauthed] at hn
    have hsil := h.silent hn
    cases name with
    | keyboard =>
      unfold Guard.switch Guard.resub
      dsimp only
      rw [subscribe_subs_of_ne _ (by decide), subscribe_subs_of_ne _ (by decide),
        subscribe_subs_of_ne _ (by decide)]
      exact hsil
    | clipboard => exact (subscribe_subs_of_ne _ (by decide)).trans hsil
    | audio =>
      unfold Guard.switch
      dsimp only
      rw [hoff hn]
      exact hsil
    | file => exact (subscribe_subs_of_ne _ (by decide)).trans hsil
    | restart | recording | blockInput | privacyMode => exact hsil
  · rw [hauthed] at hn
    have hun := h.unsubed hn
    cases name with
    | keyboard => simpa [Guard.switch, Guard.resub] using hun
    | clipboard => simpa [Guard.switch, Guard.resub] using hun
    | audio =>
      unfold Guard.switch
      dsimp only
      rw [hoff hn]
      exact hun
    | file => simpa [Guard.switch, Guard.resub] using hun
    | restart | recording | blockInput | privacyMode => exact hun

theorem Sound.handles {sc : SessionScope} {msg : Message} (h : Sound b g)
    (ht : g.authed = some sc.authConnType) (hh : Desk.Handles b sc msg g g')
    (hf : ∀ o, msg = .misc (some (.option o)) → g.authed = some .remote → ¬g.ForgetsOption b o) :
    Sound b g' := by
  have hauthed := hh.authed
  by_cases hrem : g.authed = some .remote
  · refine .of_remote (hauthed.trans hrem) ?_
    have hfits := h.fits (.inr hrem)
    have hcam : g.authed ≠ some .viewCamera := by simp [hrem]
    cases hh with
    | same => exact hfits
    | shows _ shows => exact fun s hs => (hfits s hs).shows hs shows
    | starts _ _ starts => exact fun s hs => (hfits s hs).starts hs starts
    | options _ message => exact Fits.options hfits hcam (hf _ message hrem)
    | limited scoping =>
      rw [hrem] at scoping
      cases scoping
    | calls calls => exact (h.calls calls).fits (.inr (hauthed.trans hrem))
  · refine .of_limited (hauthed.trans ht) fun heq => hrem ?_
    rw [ht, heq]

theorem Sound.begins {sc : SessionScope} {o : Option OptionMessage} (h : Sound b g)
    (hn : g.authed = none)
    (hb : Desk.Begins b sc o { g with authed := some sc.authConnType } g')
    (hf : ∀ o', o = some o' → sc.authConnType = .remote → ¬g.ForgetsOption b o') : Sound b g' := by
  have hauthed : g'.authed = some sc.authConnType := hb.authed
  by_cases hrem : sc.authConnType = .remote
  · refine .of_remote (by rw [hauthed, hrem]) ?_
    have hfits : ∀ s ∈ guardedServices, Fits b s { g with authed := some sc.authConnType } :=
      fun s hs => (h.fits (.inl hn) s hs).keep rfl (fun _ => rfl) rfl (h.fits (.inl hn) s hs).heard
    cases hb with
    | @remote g₁ _ _ options starts =>
      have h₁ : ∀ s ∈ guardedServices, Fits b s g₁ := by
        rcases options with rfl | ⟨o', ho, rfl⟩
        · exact hfits
        · exact Fits.options hfits (by simp [hrem]) (hf o' ho hrem)
      rcases starts with rfl | ⟨-, starts⟩
      · exact h₁
      · exact fun s hs => (h₁ s hs).starts hs starts
    | other type _ _ _ => exact absurd hrem type
  · exact .of_limited hauthed hrem

end Guard

/-! ## Connections -/

section Turns

variable {k : Crypto} {b : Build} {e : Env} {sh sh' : Shared} {c c' : Conn} {ev : ConnEvent}

/-- The turn changes a flag of a desktop session and forgets a service it guards: a permission is
switched, or the peer sends options. -/
inductive Conn.Forgets (b : Build) (c : Conn) : ConnEvent → Prop
  | switch {name : Permission} {enabled : Bool} (type : c.desk.authed = some .remote)
      (forgets : c.desk.guard.ForgetsSwitch b name enabled) : Forgets b c (.switchPermission name enabled)
  | option {o : OptionMessage} (type : c.desk.authed = some .remote)
      (forgets : c.desk.guard.ForgetsOption b o) : Forgets b c (.recv (.misc (some (.option o))))

/-- The turn lets the connection in and shows it the desktop, and the options of its login forget a
service. -/
structure Conn.BeginsForgetting (b : Build) (e : Env) (c : Conn) (ev : ConnEvent) (c' : Conn) : Prop where
  waiting : c.login.authorized = false
  authorized : c'.login.authorized = true
  type : c'.desk.authed = some .remote
  shown : b.os = .linux → e.unsupportedDesktop = none
  forgets : ∃ o, ev.loginOptions c.login = some o ∧ c.desk.guard.ForgetsOption b o

/-- Without options there is nothing that could disable the keyboard or the clipboard. -/
theorem Guard.ForgetsSwitch.remote {g : Guard} {name : Permission} {enabled : Bool} (hplain : g.Plain)
    (hf : g.ForgetsSwitch b name enabled) : g.authed = some .remote := by
  by_contra hne
  obtain ⟨-, hkey, -, hfile⟩ := hplain hne
  cases name with
  | keyboard => exact absurd (hkey.symm.trans hf.2.2.1) (by decide)
  | clipboard => exact absurd (hfile.symm.trans hf.2.2.2.2.1) (by decide)
  | audio | file | restart | recording | blockInput | privacyMode => exact hf

theorem shown_of_appliedOptions {sc : SessionScope} {o : Option OptionMessage} {o' : OptionMessage}
    (hrem : sc.authConnType = .remote) (h : appliedOptions b e sc o = some o') :
    o = some o' ∧ (b.os = .linux → e.unsupportedDesktop = none) := by
  unfold appliedOptions at h
  split at h
  · cases h
  · rename_i hshown
    refine ⟨h, fun hos => ?_⟩
    simpa [refusedDesktop, hos, Desk.isRemote_of_authConnType _ hrem] using hshown

theorem Guard.Sound.turn (h : c.phase ≠ .ended → c.desk.guard.Sound b) (hwf : c.Wf) (htame : c.Tame)
    (ht : Turn k b e sh c ev sh' c') (hf : ¬c.Forgets b ev) (hb : ¬c.BeginsForgetting b e ev c')
    (hlive : c'.phase ≠ .ended) : c'.desk.guard.Sound b := by
  cases ht.guard hwf with
  | same live guard => exact guard ▸ h (live hlive)
  | gone _ phase => exact absurd phase hlive
  | message event running authorized handles =>
    have hl : c.phase ≠ .ended := by simp [running]
    refine (h hl).handles (authed_type hwf authorized hl) handles fun o hmsg hrem hforgets => hf ?_
    subst event hmsg
    exact .option hrem hforgets
  | permission event running switch =>
    have hl : c.phase ≠ .ended := by simp [running]
    rw [switch]
    refine (h hl).switch ?_ fun hforgets => hf ?_
    · cases ha : c.login.authorized with
      | true => simp [authed_type hwf ha hl]
      | false => simp [authed_none hwf ha hl]
    · subst event
      exact .switch (hforgets.remote (htame.plain hl)) hforgets
  | calls running calls => exact (h (by simp [running])).calls calls
  | begins sc waiting live authorized _ begins =>
    refine (h live).begins (authed_none hwf waiting live) begins fun o ho hrem hforgets => hb ?_
    obtain ⟨hopt, hshown⟩ := shown_of_appliedOptions hrem ho
    have htype : c'.desk.authed = some .remote := hrem ▸ begins.authed
    exact ⟨waiting, authorized, htype, hshown, o, hopt, hforgets⟩

/-- The connection is a subscriber of exactly what the permissions of this side and the options of the
peer's leave it. -/
structure Conn.Agrees (b : Build) (c : Conn) : Prop where
  clipboard : b.has .clipboard = true →
    (c.desk.subs .clipboard = true ↔ c.desk.canSubClipboardService b = true)
  fileClipboard : b.has .fileClipboard = true →
    (c.desk.subs .fileClipboard = true ↔ c.desk.canSubFileClipboardService b = true)
  audio : b.has .audio = true → (c.desk.subs .audio = true ↔ c.desk.audioEnabled = true)
  cursor : b.has .cursor = true →
    (c.desk.subs .cursor = true ↔ c.desk.peerKeyboardEnabled = true ∨ c.desk.showRemoteCursor = true)

theorem Guard.Sound.agrees (h : c.desk.guard.Sound b) (hrem : c.desk.authed = some .remote)
    (hstarted : c.desk.servicesSubed = true) : c.Agrees b := by
  have heq : ∀ s ∈ guardedServices, b.has s = true → c.desk.subs s = c.desk.guard.wants b s :=
    fun s hs hb => (h.fits (.inr hrem) s hs).same hb hstarted
  refine ⟨fun hb => ?_, fun hb => ?_, fun hb => ?_, fun hb => ?_⟩
  · rw [heq .clipboard (by decide) hb]
    exact Iff.rfl
  · rw [heq .fileClipboard (by decide) hb]
    exact Iff.rfl
  · rw [heq .audio (by decide) hb]
    exact Iff.rfl
  · rw [heq .cursor (by decide) hb]
    exact Bool.or_eq_true_iff

end Turns

/-! ## Runs -/

section Runs

variable {k : Crypto} {b : Build} {h : History} {w : World} {ev : Event}

/-- The subscriptions of every desktop session whose services were subscribed to agree with its
permissions and options. -/
def World.Agrees (b : Build) (w : World) : Prop :=
  ∀ (i : Nat) (c : Conn), w.conns[i]? = some c → c.phase ≠ .ended → c.desk.authed = some .remote →
    c.desk.servicesSubed = true → c.Agrees b

def Forgets (b : Build) (w : World) (ev : Event) : Prop :=
  ∃ i e cev c, ev = .conn i e cev ∧ w.conns[i]? = some c ∧ c.Forgets b cev

def BeginsForgetting (k : Crypto) (b : Build) (w : World) (ev : Event) : Prop :=
  ∃ i e cev c w' c', ev = .conn i e cev ∧ World.step k b w ev = some w' ∧ w.conns[i]? = some c ∧
    w'.conns[i]? = some c' ∧ c.BeginsForgetting b e cev c'

/-- The thread of one of the services makes a subscriber of the connection in the middle of an
`is_subed` of the turn. -/
def Misses (b : Build) (ev : Event) : Prop :=
  ∃ i e cev s, ev = .conn i e cev ∧ s ∈ guardedServices ∧ b.has s = true ∧ e.swapping s = true

/-- The step leaves a subscription as it should not be. -/
def Lapses (k : Crypto) (b : Build) (p : World × Event) : Prop :=
  Forgets b p.1 p.2 ∨ BeginsForgetting k b p.1 p.2 ∨ Misses b p.2

/-- At the start of a turn nothing has been missed. -/
theorem Guard.Sound.clear {e : Env} {c : Conn} (h : c.desk.guard.Sound b)
    (hheard : ∀ s ∈ guardedServices, b.has s = true → e.swapping s = false) :
    (c.clear e).desk.guard.Sound b :=
  ⟨fun hty s hs => (h.fits hty s hs).keep rfl (fun _ => rfl) rfl (hheard s hs), h.silent, h.unsubed⟩

theorem sound_of_exec (hx : Exec World.Init (World.step k b) h w) (hno : ∀ p ∈ h, ¬Lapses k b p) :
    ∀ (i : Nat) (c : Conn), w.conns[i]? = some c → c.phase ≠ .ended → c.desk.guard.Sound b := by
  induction hx with
  | start hi =>
    intro i c hc
    rw [hi.1] at hc
    cases hc
  | @snoc h w w' ev hx hstep ih =>
    have hsound := ih fun p hp => hno p (List.mem_cons_of_mem _ hp)
    have hlapse := hno _ (List.mem_cons_self ..)
    have hwf := World.wf_of_exec hx
    have htame := tame_of_exec hx
    intro i c' hc' hlive
    have hat := hc'
    cases World.steps_of_step hwf hstep with
    | start m =>
      rcases World.getElem?_concat hc' with ⟨-, rfl⟩ | hc'
      · exact .fresh rfl rfl rfl
      · exact hsound i c' hc' hlive
    | @conn _ e cev c _ _ hc turn =>
      rcases getElem?_set_eq_some hc' with ⟨rfl, rfl⟩ | ⟨-, hc'⟩
      · have hclear : (c.clear e).phase ≠ .ended → (c.clear e).desk.guard.Sound b := by
          intro hl
          refine (hsound i c hc hl).clear fun s hs hb => ?_
          by_contra hswap
          exact hlapse (.inr (.inr ⟨i, e, cev, s, rfl, hs, hb, by simpa using hswap⟩))
        refine Guard.Sound.turn hclear ((hwf i c hc).clear e) ((htame i c hc).clear e) turn
          (fun hforgets => hlapse (.inl ⟨i, e, cev, c, rfl, hc, ?_⟩))
          (fun hbegins => hlapse (.inr (.inl ⟨i, e, cev, c, _, c', rfl, hstep, hc, hat, ?_⟩))) hlive
        · cases hforgets with
          | switch type forgets => exact .switch type forgets
          | option type forgets => exact .option type forgets
        · exact ⟨hbegins.waiting, hbegins.authorized, hbegins.type, hbegins.shown, hbegins.forgets⟩
      · exact hsound i c' hc' hlive
    | insertSwitchSidesUuid now id uuid => exact hsound i c' hc' hlive
    | updateTemporaryPassword value => exact hsound i c' hc' hlive

/-- In every run in which no change of a flag forgets a service and no revocation is missed, the
subscriptions of every desktop session agree with its permissions and options. -/
theorem agrees_unless_forgotten (hx : Exec World.Init (World.step k b) h w)
    (hno : ∀ p ∈ h, ¬Lapses k b p) : w.Agrees b := by
  intro i c hc hlive hrem hstarted
  exact (sound_of_exec hx hno i c hc hlive).agrees hrem hstarted

theorem not_lapses {i : Nat} {e : Env} {cev : ConnEvent} {c : Conn} (hc : w.conns[i]? = some c)
    (hf : ¬c.Forgets b cev) (hopt : c.login.authorized = false → cev.loginOptions c.login = none)
    (hheard : e.swapping = fun _ => false) : ¬Lapses k b (w, .conn i e cev) := by
  rintro (⟨_, _, _, c', hev, hc', hf'⟩ | ⟨_, _, _, c', _, _, hev, -, hc', -, hb⟩ | ⟨_, _, _, s, hev, -, -, hs⟩)
  · cases hev
    rw [Option.some.inj (hc.symm.trans hc')] at hf
    exact hf hf'
  · cases hev
    have heq := Option.some.inj (hc.symm.trans hc')
    obtain ⟨o, ho, -⟩ := hb.forgets
    rw [heq] at hopt
    cases (hopt hb.waiting).symm.trans ho
  · cases hev
    rw [hheard] at hs
    cases hs

/-- The peer asks for files and for the cursor; then the keyboard is taken from it, and it disables
the audio. -/
theorem agrees_unless_forgotten_keyboard_off : ∃ w h c, Exec World.Init (World.step .unused .linux) h w ∧
    w.Agrees .linux ∧ w.conns[0]? = some c ∧ c.desk.authed = some .remote ∧
    c.desk.servicesSubed = true ∧ c.desk.subs .clipboard = false ∧ c.desk.subs .fileClipboard = true ∧
    c.desk.subs .audio = false ∧ c.desk.subs .cursor = true := by
  have hstart : Exec World.Init (World.step .unused .linux) [(World.idle "8k2xq4", .start .plain)] _ :=
    .snoc (.start (World.init_idle "8k2xq4")) rfl
  have hauth := hstart.snoc (e := .conn 0 { freshPassword := "3m7tdw" } .authorize) rfl
  have hfiles := hauth.snoc (e := .conn 0 { freshPassword := "3m7tdw" }
    (.recv (.misc (some (.option { enableFileTransfer := .known .yes, showRemoteCursor := .known .yes }))))) rfl
  have hoff := hfiles.snoc
    (e := .conn 0 { freshPassword := "3m7tdw" } (.switchPermission .keyboard false)) rfl
  have hquiet := hoff.snoc (e := .conn 0 { freshPassword := "3m7tdw" }
    (.recv (.misc (some (.option { disableAudio := .known .yes }))))) rfl
  refine ⟨_, _, _, hquiet, agrees_unless_forgotten hquiet fun p hp => ?_, rfl, rfl, rfl, by decide +kernel,
    by decide +kernel, by decide +kernel, by decide +kernel⟩
  simp only [List.mem_cons, List.not_mem_nil, or_false] at hp
  rcases hp with rfl | rfl | rfl | rfl | rfl
  · refine not_lapses rfl (fun hf => ?_) (fun hw => ?_) rfl
    · cases hf with
      | option _ forgets =>
        obtain ⟨-, -, ⟨v, hv, -⟩, -⟩ := forgets
        cases hv
    · rfl
  · refine not_lapses rfl (fun hf => ?_) (fun hw => ?_) rfl
    · cases hf with
      | switch _ forgets => exact absurd forgets.2.1 (by decide)
    · rfl
  · refine not_lapses rfl (fun hf => ?_) (fun hw => ?_) rfl
    · cases hf with
      | option _ forgets =>
        obtain ⟨-, -, ⟨v, hv, -⟩, -⟩ := forgets
        cases hv
    · rfl
  · refine not_lapses rfl (fun hf => ?_) (fun _ => rfl) rfl
    cases hf
  · rintro (⟨_, _, _, _, hev, -⟩ | ⟨_, _, _, _, _, _, hev, -⟩ | ⟨_, _, _, _, hev, -⟩) <;> cases hev

/-- The peer has switched on files in the clipboard; then the clipboard is taken from it. It goes on to
be told of the files that are copied. -/
theorem clipboard_switch_forgets_files : ∃ w h c, Exec World.Init (World.step .unused .linux) h w ∧
    h.map Prod.snd = [.conn 0 { freshPassword := "3m7tdw" } (.switchPermission .clipboard false),
      .conn 0 { freshPassword := "3m7tdw" }
        (.recv (.misc (some (.option { enableFileTransfer := .known .yes })))),
      .conn 0 { freshPassword := "3m7tdw" } .authorize, .start .plain] ∧
    w.conns[0]? = some c ∧ c.desk.subs .fileClipboard = true ∧
    c.desk.canSubFileClipboardService .linux = false ∧ ¬w.Agrees .linux := by
  have hstart : Exec World.Init (World.step .unused .linux) [(World.idle "8k2xq4", .start .plain)] _ :=
    .snoc (.start (World.init_idle "8k2xq4")) rfl
  have hauth := hstart.snoc (e := .conn 0 { freshPassword := "3m7tdw" } .authorize) rfl
  have hfiles := hauth.snoc (e := .conn 0 { freshPassword := "3m7tdw" }
    (.recv (.misc (some (.option { enableFileTransfer := .known .yes }))))) rfl
  have hoff := hfiles.snoc
    (e := .conn 0 { freshPassword := "3m7tdw" } (.switchPermission .clipboard false)) rfl
  refine ⟨_, _, _, hoff, rfl, rfl, by decide +kernel, by decide +kernel, fun hagrees => ?_⟩
  have hfile := (hagrees 0 _ rfl (by decide +kernel) rfl rfl).fileClipboard rfl
  exact absurd (hfile.1 (by decide +kernel)) (by decide +kernel)

end Runs

end FontisRemote.Connection
