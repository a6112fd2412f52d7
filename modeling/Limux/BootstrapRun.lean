import Limux.Bootstrap

/-! The cached binary is verified as long as no download touches a file that a call is
checking or has put in place. -/
namespace Limux.Bootstrap

open Machine

variable {env : Env} {s s' : State}

/-- The file a call is checking, or has checked and not yet moved. -/
def Phase.checked : Phase → Option ℕ
  | .verifying _ i _ | .verified i | .executable i => some i
  | _ => none

/-- A download opens the temporary file only while no call is between opening it for the
check and renaming it, and does not write to a file that is being checked or in place. -/
def Undisturbed (s : State) : Act → Prop
  | .openDest _ => ∀ p ∈ s.calls, p.checked = none
  | .writeDest f _ => ∀ x ∈ s.fetches[f]?, ∀ e ∈ x.dest,
      s.disk.names .cached ≠ some e.1 ∧ ∀ p ∈ s.calls, p.checked ≠ some e.1
  | _ => True

instance (s : State) : ∀ a, Decidable (Undisturbed s a)
  | .openDest _ => inferInstanceAs (Decidable (∀ p ∈ s.calls, p.checked = none))
  | .writeDest f _ => inferInstanceAs (Decidable (∀ x ∈ s.fetches[f]?, ∀ e ∈ x.dest,
      s.disk.names .cached ≠ some e.1 ∧ ∀ p ∈ s.calls, p.checked ≠ some e.1))
  | .call | .check _ | .loadManifest _ _ | .createDirAll _ _ | .spawn _ _ | .exit _ | .notice _
  | .giveUp _ | .openTmp _ _ | .readTmp _ _ _ | .discard _ | .setPermissions _ _
  | .rename _ _ => .isTrue trivial

/-- The bytes have the digest that the manifest lists. -/
def Good (env : Env) (data : List UInt8) : Prop := ∀ e, env.entry = some e → env.matchesSha data e

/-- The cached binary, if it is there, is verified. -/
def Verified (env : Env) (s : State) : Prop := ∀ data, s.disk.content .cached = some data →
  Good env data

/-- What is known of a call in a phase. -/
def Phase.Ok (env : Env) (d : Disk Name) : Phase → Prop
  | .checking | .loading | .mismatched | .done (.error _) => True
  | .makingDir e | .spawning e _ | .waiting e _ _ | .opening e => env.entry = some e
  | .verifying e i data => env.entry = some e ∧ (d.bytes i).take data.length = data ∧
      ∀ j, d.names .tmp = some j → j = i
  | .verified i | .executable i => Good env (d.bytes i) ∧ ∀ j, d.names .tmp = some j → j = i
  | .done (.ok p) => env.override = none → p = env.cachedBinaryPath ∧
      (d.names .cached).isSome

theorem Phase.Ok.mono {d d' : Disk Name} {p : Phase} (h : p.Ok env d)
    (hb : ∀ i, p.checked = some i → d'.bytes i = d.bytes i)
    (ht : ∀ i j, p.checked = some i → d'.names .tmp = some j → d.names .tmp = some j)
    (hc : (d.names .cached).isSome → (d'.names .cached).isSome) : p.Ok env d' := by
  cases p with
  | verifying e i data =>
    refine ⟨h.1,?_,fun j hj => h.2.2 j (ht i j rfl hj)⟩
    rw [hb i rfl]
    exact h.2.1
  | verified i | executable i =>
    refine ⟨?_,fun j hj => h.2 j (ht i j rfl hj)⟩
    rw [hb i rfl]
    exact h.1
  | done r =>
    cases r with
    | error e => trivial
    | ok p => exact fun ho => ⟨(h ho).1,hc (h ho).2⟩
  | _ => exact h

structure Inv (env : Env) (s : State) : Prop where
  sound : s.disk.Sound
  cached : Verified env s
  calls : ∀ p ∈ s.calls, p.Ok env s.disk

namespace Inv

theorem goto (h : Inv env s) (c : ℕ) {p : Phase} (hp : p.Ok env s.disk) : Inv env (s.goto c p) := by
  refine ⟨h.sound,h.cached,fun q hq => ?_⟩
  rcases List.mem_or_eq_of_mem_set hq with hq | rfl
  · exact h.calls q hq
  · exact hp

theorem orFail (h : Inv env s) (c : ℕ) (err : Option String) {next : State}
    (hn : Inv env next) : Inv env (s.orFail c err next) := by
  cases err with
  | some e => exact h.goto c trivial
  | none => exact hn

theorem withDisk (h : Inv env s) {d : Disk Name} (hd : d.Sound)
    (hv : Verified env { s with disk := d })
    (hc : ∀ p ∈ s.calls, p.Ok env s.disk → p.Ok env d) : Inv env { s with disk := d } :=
  ⟨hd,hv,fun p hp => hc p hp (h.calls p hp)⟩

theorem get (h : Inv env s) {c : ℕ} {p : Phase} (hc : s.calls[c]? = some p) : p.Ok env s.disk :=
  h.calls p (List.mem_of_getElem? hc)

theorem checkCache (h : Inv env s) (c : ℕ) : Inv env (s.checkCache env c) := by
  unfold State.checkCache
  split
  · rename_i o ho
    cases hr : o.result with
    | error e => exact h.goto c trivial
    | ok p => exact h.goto c (fun hn => by rw [ho] at hn; cases hn)
  · split
    · rename_i hc
      exact h.goto c (fun _ => ⟨rfl,hc⟩)
    · exact h.goto c trivial

theorem loadManifest (h : Inv env s) (c : ℕ) (err : Option String) :
    Inv env (s.loadManifest env c err) := by
  cases err with
  | some detail => exact h.goto c trivial
  | none =>
    unfold State.loadManifest
    simp only
    split
    · rename_i e he
      exact h.goto c he
    · exact h.goto c trivial

theorem failed (h : Inv env s) (c : ℕ) {e : ManifestEntry} (he : env.entry = some e) (t : Tool) :
    Inv env (s.goto c (failed e t)) := by
  cases t with
  | curl => exact h.goto c he
  | wget => exact h.goto c trivial

theorem openTmp (h : Inv env s) (c : ℕ) {e : ManifestEntry} (he : env.entry = some e) :
    Inv env (s.openTmp c e) := by
  unfold State.openTmp
  split
  · rename_i i hi
    exact h.goto c ⟨he,rfl,fun j hj => Option.some.inj (hj.symm.trans hi)⟩
  · exact h.goto c trivial

/-- What is read is the beginning of the file; at its end it is all of it. -/
theorem readTmp (h : Inv env s) (c : ℕ) {n : ℕ} (hn : 0 < n) {e : ManifestEntry} {i : ℕ}
    {data : List UInt8} (hp : (Phase.verifying e i data).Ok env s.disk) :
    Inv env (s.readTmp env c n e i data) := by
  obtain ⟨he,hdata,htmp⟩ := hp
  unfold State.readTmp
  split
  · rename_i hr
    split
    · rename_i hm
      refine h.goto c ⟨fun e' he' => ?_,htmp⟩
      rw [he] at he'
      cases he'
      rw [← Disk.read_eq_nil hn hr,hdata]
      exact hm
    · exact h.goto c trivial
  · refine h.goto c ⟨he,?_,htmp⟩
    have hall := Disk.read_take s.disk i data.length n
    rw [hdata] at hall
    rw [hall,List.length_take,← List.take_eq_take_min]

theorem openDest (h : Inv env s) (hq : ∀ p ∈ s.calls, p.checked = none) :
    Inv env { s with disk := (s.disk.create .tmp).2 } := by
  have hname : (s.disk.create .tmp).2.names .cached = s.disk.names .cached :=
    Disk.names_create_of_ne (by decide)
  refine h.withDisk (h.sound.create .tmp) (fun data hd => ?_) (fun p hp hok => ?_)
  · obtain ⟨i,hi,rfl⟩ := Option.map_eq_some_iff.mp hd
    rw [hname] at hi
    rw [Disk.bytes_create_of_ne (h.sound.ne_create (by decide) hi)]
    exact h.cached _ (Option.map_eq_some_iff.mpr ⟨i,hi,rfl⟩)
  · refine hok.mono (fun i hi => ?_) (fun i j hi _ => ?_) (fun hc => by rwa [hname])
    · rw [hq p hp] at hi
      cases hi
    · rw [hq p hp] at hi
      cases hi

theorem writeDest (h : Inv env s) {i : ℕ} (hi : s.disk.names .cached ≠ some i)
    (hq : ∀ p ∈ s.calls, p.checked ≠ some i) (offset : ℕ) (piece : List UInt8) :
    Inv env { s with disk := s.disk.write i offset piece } := by
  refine h.withDisk (h.sound.write i offset piece) (fun data hd => ?_) (fun p hp hok => ?_)
  · obtain ⟨j,hj,rfl⟩ := Option.map_eq_some_iff.mp hd
    have hji : j ≠ i := fun he => hi (he ▸ hj)
    rw [Disk.bytes_write_of_ne hji]
    exact h.cached _ (Option.map_eq_some_iff.mpr ⟨j,hj,rfl⟩)
  · refine hok.mono (fun j hj => ?_) (fun _ _ _ hj => hj) id
    exact Disk.bytes_write_of_ne (fun he => hq p hp (hj.trans (congrArg some he))) offset piece

theorem discard (h : Inv env s) : Inv env { s with disk := s.disk.remove .tmp } := by
  have hname : (s.disk.remove .tmp).names .cached = s.disk.names .cached :=
    Disk.names_remove_of_ne (by decide)
  refine h.withDisk (h.sound.remove .tmp) (fun data hd => h.cached data ?_) (fun p hp hok => ?_)
  · rw [← hd,Disk.content,Disk.content,hname]
    rfl
  · exact hok.mono (fun _ _ => rfl) (fun _ _ _ hj => (Disk.names_remove hj).2)
      (fun hc => by rwa [hname])

theorem setPermissions (h : Inv env s) (c : ℕ) {i : ℕ} (hp : (Phase.verified i).Ok env s.disk) :
    Inv env (s.setPermissions c i) := by
  unfold State.setPermissions
  split
  · have hm : ∀ m, Inv env { s with modes := m } := fun m => ⟨h.sound,h.cached,h.calls⟩
    exact (hm _).goto c hp
  · exact h.goto c trivial

theorem moveIntoPlace (h : Inv env s) (c : ℕ) {i : ℕ}
    (hp : (Phase.executable i).Ok env s.disk) : Inv env (s.moveIntoPlace env c) := by
  unfold State.moveIntoPlace
  split
  · rename_i d hd
    obtain ⟨hbytes,-⟩ := Disk.bytes_rename hd
    have hin : (d.names .cached).isSome := by
      obtain ⟨j,-,rfl⟩ := Option.map_eq_some_iff.mp hd
      rfl
    have hmoved : Inv env { s with disk := d } := by
      refine h.withDisk (h.sound.rename hd) (fun data hdata => ?_) (fun p hp hok => ?_)
      · obtain ⟨j,hj,rfl⟩ := Option.map_eq_some_iff.mp hdata
        rw [hbytes]
        rcases (Disk.names_rename hd hj).2 with ⟨-,ht⟩ | hc
        · rw [hp.2 j ht]
          exact hp.1
        · exact h.cached _ (Option.map_eq_some_iff.mpr ⟨j,hc,rfl⟩)
      · exact hok.mono (fun _ _ => by rw [hbytes])
          (fun _ _ _ hj => absurd rfl (Disk.names_rename hd hj).1) (fun _ => hin)
    exact hmoved.goto c (fun _ => ⟨rfl,hin⟩)
  · exact h.goto c trivial

theorem withFetches (h : Inv env s) (l : List Fetch) : Inv env { s with fetches := l } :=
  ⟨h.sound,h.cached,h.calls⟩

end Inv

theorem inv_step (h : Inv env s) {a : Act} (hq : Undisturbed s a) (hs : step env s a = some s') :
    Inv env s' := by
  cases a with
  | call =>
    cases hs
    refine ⟨h.sound,h.cached,fun p hp => ?_⟩
    rcases List.mem_append.mp hp with hp | hp
    · exact h.calls p hp
    · rw [List.mem_singleton.mp hp]
      trivial
  | check c =>
    simp only [step] at hs
    split at hs
    · cases hs; exact h.checkCache c
    · cases hs
  | loadManifest c err =>
    simp only [step] at hs
    split at hs
    · cases hs; exact h.loadManifest c err
    · cases hs
  | createDirAll c err =>
    simp only [step] at hs
    split at hs
    · rename_i e hc
      cases hs
      have he : env.entry = some e := h.get hc
      exact h.orFail c err (h.goto c he)
    · cases hs
  | spawn c ok =>
    simp only [step] at hs
    split at hs
    · rename_i e tool hc
      have he : env.entry = some e := h.get hc
      split at hs
      · cases hs
        exact (h.withFetches _).goto c he
      · cases hs
        exact h.failed c he tool
    · cases hs
  | openDest f =>
    simp only [step] at hs
    split at hs
    · cases hs
      exact (h.openDest hq).withFetches _
    · cases hs
  | writeDest f piece =>
    simp only [step] at hs
    split at hs
    · rename_i i offset hf
      cases hs
      obtain ⟨hi,hp⟩ := hq _ hf _ rfl
      exact (h.writeDest hi hp offset piece).withFetches _
    · cases hs
  | exit f =>
    simp only [step] at hs
    split at hs
    · cases hs; exact h.withFetches _
    · cases hs
  | notice c =>
    simp only [step] at hs
    split at hs
    · rename_i e tool f hc
      have he : env.entry = some e := h.get hc
      split at hs
      · cases hs
        exact h.goto c he
      · cases hs
    · cases hs
  | giveUp c =>
    simp only [step] at hs
    split at hs
    · rename_i e tool f hc
      cases hs
      exact h.failed c (h.get hc) tool
    · cases hs
  | openTmp c err =>
    simp only [step] at hs
    split at hs
    · rename_i e hc
      cases hs
      exact h.orFail c err (h.openTmp c (h.get hc))
    · cases hs
  | readTmp c n err =>
    simp only [step] at hs
    split at hs
    · rename_i e i data hc
      obtain ⟨hn,hs⟩ := Option.ite_none_right_eq_some.mp hs
      cases hs
      exact h.orFail c err (h.readTmp c hn (h.get hc))
    · cases hs
  | discard c =>
    simp only [step] at hs
    split at hs
    · cases hs; exact h.discard.goto c trivial
    · cases hs
  | setPermissions c err =>
    simp only [step] at hs
    split at hs
    · rename_i i hc
      cases hs
      exact h.orFail c err (h.setPermissions c (h.get hc))
    · cases hs
  | rename c err =>
    simp only [step] at hs
    split at hs
    · rename_i i hc
      cases hs
      exact h.orFail c err (h.moveIntoPlace c (h.get hc))
    · cases hs

/-- Before any call; processes of an earlier run may still be there. -/
structure Starts (env : Env) (s : State) : Prop where
  sound : s.disk.Sound
  cached : Verified env s
  calls : s.calls = []

/-- In every run in which no download touches a file that is being checked or in place, the
cached binary is verified whenever it exists, and so is every path that a call returns. -/
theorem cache_verified {s₀ : State} (h₀ : Starts env s₀) (h : Reach (step env) Undisturbed s₀ s) :
    Verified env s ∧ ∀ (c : ℕ) (p : String), s.calls[c]? = some (.done (.ok p)) → env.override = none →
      p = env.cachedBinaryPath ∧ ∃ data, s.disk.content .cached = some data ∧ Good env data := by
  have hinv : Inv env s := h.inv ⟨h₀.sound,h₀.cached,by simp [h₀.calls]⟩
    (fun _ _ _ hi hq hs => inv_step hi hq hs)
  refine ⟨hinv.cached,fun c p hc ho => ?_⟩
  obtain ⟨hp,hin⟩ := hinv.get hc ho
  obtain ⟨i,hi⟩ := Option.isSome_iff_exists.mp hin
  have hd : s.disk.content .cached = some (s.disk.bytes i) := by rw [Disk.content,hi]; rfl
  exact ⟨hp,_,hd,hinv.cached _ hd⟩

/-! Two calls at once. The digests are those of the empty file and of `abc`. -/

def abc : List UInt8 := [0x61,0x62,0x63]

def sample : Env :=
  { override := none
    cacheDir := "/home/u/.cache/limux/remote-daemons"
    goOs := "linux"
    goArch := "amd64"
    version := "0.1.0"
    manifest := ⟨[⟨"linux","amd64","https://host/limuxd-remote",
      "ba7816bf8f01cfea414140de5dae2223b00361a396177a9cb410ff61f20015ad"⟩]⟩
    digest := fun data =>
      if data = [] then "e3b0c44298fc1c149afbf4c8996fb92427ae41e4649b934ca495991b7852b855"
      else if data = abc then "ba7816bf8f01cfea414140de5dae2223b00361a396177a9cb410ff61f20015ad"
      else "" }

def emptyCache : State := ⟨⟨fun _ => none,fun _ => [],0⟩,fun _ => 0o644,[],[]⟩

theorem starts_emptyCache (env : Env) : Starts env emptyCache := by
  refine ⟨⟨?_,?_⟩,?_,rfl⟩
  · intro _ _ h
    cases h
  · intro _ _ _ h
    cases h
  · intro _ h
    cases h

/-- Whether the first call has returned the path, and the cached binary. -/
def State.outcome (s : State) : Bool × Option (List UInt8) :=
  (s.calls[0]?.any (fun p => match p with | .done (.ok _) => true | _ => false),
    s.disk.content .cached)

/-- The second curl truncates the file between the check and the rename. -/
theorem truncated_after_check : ∃ s, Reach (step sample) anyStep emptyCache s ∧
    s.outcome.1 = true ∧ ¬ Verified sample s := by
  have h : ∃ s, Reach (step sample) anyStep emptyCache s ∧ s.outcome = (true,some []) :=
    -- both calls miss the cache; the second has started curl when the first one checks
    reach_of_glance State.outcome [.call,.call,.check 0,.check 1,.loadManifest 0 none,
      .loadManifest 1 none,.createDirAll 0 none,.createDirAll 1 none,.spawn 0 true,.openDest 0,
      .writeDest 0 abc,.exit 0,.notice 0,.spawn 1 true,.openTmp 0 none,.readTmp 0 8 none,
      .readTmp 0 8 none,.openDest 1,.setPermissions 0 none,.rename 0 none] (by decide +kernel)
  obtain ⟨s,hs,he⟩ := h
  obtain ⟨hdone,hcontent⟩ := Prod.mk.inj he
  refine ⟨s,hs,by rw [he],fun hv => ?_⟩
  exact absurd (hv [] hcontent _ rfl) (by decide +kernel)

/-- One call downloads the binary, another one finds it. -/
theorem cache_verified_twice : ∃ s, Reach (step sample) Undisturbed emptyCache s ∧
    Verified sample s ∧ s.outcome = (true,some abc) := by
  have h : ∃ s, Reach (step sample) Undisturbed emptyCache s ∧ s.outcome = (true,some abc) :=
    reach_of_glance State.outcome ([.call,.check 0,.loadManifest 0 none,.createDirAll 0 none,
      .spawn 0 true,.openDest 0,.writeDest 0 abc,.exit 0,.notice 0,.openTmp 0 none,
      .readTmp 0 8 none,.readTmp 0 8 none,.setPermissions 0 none,.rename 0 none,.call,.check 1])
      (by decide +kernel)
  obtain ⟨s,hs,he⟩ := h
  exact ⟨s,hs,(cache_verified (starts_emptyCache sample) hs).1,he⟩

end Limux.Bootstrap
