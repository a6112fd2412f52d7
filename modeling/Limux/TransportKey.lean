import Limux.Broker
import Limux.Lib.Number
import Limux.Lib.Tagged

/-! Which transports a transport key tells apart: its fields are joined without an escape, so a
field that contains what another starts with makes two readings of one key. -/
namespace Limux

open Text

namespace RemoteConfiguration

/-- The same host and the same credentials. -/
def SameTransport (a b : RemoteConfiguration) : Prop :=
  a.destination = b.destination ∧ a.port = b.port ∧ a.identityFile = b.identityFile ∧
    a.sshOptions.Perm b.sshOptions

def portTag : Text := "port=".toList

def idTag : Text := "id=".toList

def optTag : Text := "opt=".toList

def tags : List Text := [portTag,idTag,optTag]

/-- The fields of the key behind the destination. -/
def fields (c : RemoteConfiguration) : List Text :=
  c.port.toList.map (fun p => portTag ++ ofNat p.toNat) ++
    (c.identityFile.toList.map (fun v => idTag ++ v.toList) ++
      (c.sshOptions.insertionSort (· ≤ ·)).map (fun v => optTag ++ v.toList))

def joined (fs : List Text) : Text := fs.flatMap (fun f => '|' :: f)

theorem intercalate_cons (x : Text) (xs : List Text) :
    ['|'].intercalate (x :: xs) = x ++ joined xs := by
  induction xs generalizing x with
  | nil => simp [joined,List.intercalate]
  | cons y ys ih =>
    rw [List.intercalate_cons_cons,ih]
    simp [joined]

theorem toList_transportKey (c : RemoteConfiguration) :
    c.transportKey.toList = "dest=".toList ++ (c.destination.toList ++ joined c.fields) := by
  unfold transportKey
  rw [String.toList_intercalate,List.map_cons]
  refine (intercalate_cons _ _).trans ?_
  have hp : (String.toList ∘ fun p : UInt16 => "port=" ++ toString p.toNat) =
      fun p => portTag ++ ofNat p.toNat := by
    funext p
    exact String.toList_append.trans (congrArg (portTag ++ ·) Nat.toList_repr)
  have hi : (String.toList ∘ fun v => "id=" ++ v) = fun v => idTag ++ v.toList := by
    funext v
    exact String.toList_append
  have ho : (String.toList ∘ fun v => "opt=" ++ v) = fun v => optTag ++ v.toList := by
    funext v
    exact String.toList_append
  rw [String.toList_append,List.append_assoc,List.map_append,List.map_append,List.map_map,
    List.map_map,List.map_map,hp,hi,ho,List.append_assoc]
  rfl

theorem transportKey_eq_iff {a b : RemoteConfiguration} : a.transportKey = b.transportKey ↔
    a.destination.toList ++ joined a.fields = b.destination.toList ++ joined b.fields := by
  rw [← String.toList_inj,toList_transportKey,toList_transportKey,List.append_cancel_left_eq]

/-- No text of the configuration contains `|` with the tag of a field behind it. -/
def Unforged (c : RemoteConfiguration) : Prop :=
  ¬ Tagged.Forged '|' tags c.destination.toList ∧
    (∀ v ∈ c.identityFile, ¬ Tagged.Forged '|' tags v.toList) ∧
    ∀ v ∈ c.sshOptions, ¬ Tagged.Forged '|' tags v.toList

/-- Nothing but a destination, and one that cannot be read as more. -/
def Lone (c : RemoteConfiguration) : Prop :=
  c.port = none ∧ c.identityFile = none ∧ c.sshOptions = [] ∧
    ¬ ('|' :: idTag) <:+: c.destination.toList ∧ ¬ ('|' :: optTag) <:+: c.destination.toList ∧
    ∀ p : UInt16, ¬ ('|' :: (portTag ++ ofNat p.toNat)) <:+ c.destination.toList

theorem separator_notMem_tag : ∀ t ∈ tags, '|' ∉ t := by decide

/-! What a field says is read off its tag. -/

theorem stripPrefix_other {t t' : Text} (h : t.head? ≠ t'.head?) (ht : t ≠ []) (ht' : t' ≠ [])
    (s : Text) : stripPrefix t (t' ++ s) = none := by
  obtain ⟨c,u,rfl⟩ := List.exists_cons_of_ne_nil ht
  obtain ⟨d,w,rfl⟩ := List.exists_cons_of_ne_nil ht'
  have hne : c ≠ d := fun he => h (congrArg some he)
  rw [stripPrefix,if_neg]
  simp [List.isPrefixOf,hne]

def valuesOf (t : Text) (fs : List Text) : List Text := fs.filterMap (stripPrefix t)

theorem valuesOf_append (t : Text) (fs gs : List Text) :
    valuesOf t (fs ++ gs) = valuesOf t fs ++ valuesOf t gs := List.filterMap_append

theorem valuesOf_same {α : Type} (t : Text) (f : α → Text) (l : List α) :
    valuesOf t (l.map (fun v => t ++ f v)) = l.map f := by
  rw [valuesOf,List.filterMap_map,← List.filterMap_eq_map]
  congr 1
  funext v
  exact stripPrefix_append t (f v)

theorem valuesOf_other {α : Type} {t t' : Text} (h : t.head? ≠ t'.head?) (ht : t ≠ [])
    (ht' : t' ≠ []) (f : α → Text) (l : List α) :
    valuesOf t (l.map (fun v => t' ++ f v)) = [] := by
  rw [valuesOf,List.filterMap_map,List.filterMap_eq_nil_iff]
  exact fun v _ => stripPrefix_other h ht ht' (f v)

theorem ports_fields (c : RemoteConfiguration) :
    valuesOf portTag c.fields = c.port.toList.map (fun p => ofNat p.toNat) := by
  rw [fields,valuesOf_append,valuesOf_append,valuesOf_same,
    valuesOf_other (by decide) (by decide) (by decide),
    valuesOf_other (by decide) (by decide) (by decide)]
  simp

theorem ids_fields (c : RemoteConfiguration) :
    valuesOf idTag c.fields = c.identityFile.toList.map String.toList := by
  rw [fields,valuesOf_append,valuesOf_append,valuesOf_same,
    valuesOf_other (by decide) (by decide) (by decide),
    valuesOf_other (by decide) (by decide) (by decide)]
  simp

theorem opts_fields (c : RemoteConfiguration) : valuesOf optTag c.fields =
    (c.sshOptions.insertionSort (· ≤ ·)).map String.toList := by
  rw [fields,valuesOf_append,valuesOf_append,valuesOf_same,
    valuesOf_other (by decide) (by decide) (by decide),
    valuesOf_other (by decide) (by decide) (by decide)]
  simp

theorem option_eq_of_values {α : Type} {a b : Option α} {f : α → Text}
    (hf : Function.Injective f) (h : a.toList.map f = b.toList.map f) : a = b := by
  cases a with
  | none =>
    cases b with
    | none => rfl
    | some w => cases h
  | some v =>
    cases b with
    | none => cases h
    | some w => rw [hf (List.cons.inj h).1]

theorem ofNat_toNat_injective : Function.Injective (fun p : UInt16 => ofNat p.toNat) := by
  intro p q h
  apply UInt16.toNat_inj.mp
  apply Option.some.inj
  rw [← digits_ofNat,← digits_ofNat]
  exact congrArg digits h

theorem toList_injective : Function.Injective String.toList := fun _ _ h => String.toList_inj.mp h

theorem sorted_of_perm {l l' : List String} (h : l.Perm l') :
    l.insertionSort (· ≤ ·) = l'.insertionSort (· ≤ ·) := by
  have hanti : Std.Antisymm (α := String) (· ≤ ·) := ⟨fun _ _ => String.le_antisymm⟩
  have htotal : Std.Total (α := String) (· ≤ ·) := ⟨String.le_total⟩
  have htrans : IsTrans String (· ≤ ·) := ⟨fun _ _ _ => String.le_trans⟩
  refine List.Perm.eq_of_pairwise' (List.pairwise_insertionSort (· ≤ ·) l)
    (List.pairwise_insertionSort (· ≤ ·) l') ?_
  exact (List.perm_insertionSort _ _).trans (h.trans (List.perm_insertionSort _ _).symm)

/-- The fields are the transport up to the order of the options. -/
theorem sameTransport_iff {a b : RemoteConfiguration} :
    a.SameTransport b ↔ a.destination = b.destination ∧ a.fields = b.fields := by
  constructor
  · rintro ⟨hd,hp,hi,ho⟩
    exact ⟨hd,by rw [fields,fields,hp,hi,sorted_of_perm ho]⟩
  · rintro ⟨hd,hf⟩
    refine ⟨hd,option_eq_of_values ofNat_toNat_injective ?_,
      option_eq_of_values toList_injective ?_,?_⟩
    · rw [← ports_fields,hf,ports_fields]
    · rw [← ids_fields,hf,ids_fields]
    · have hs : a.sshOptions.insertionSort (· ≤ ·) = b.sshOptions.insertionSort (· ≤ ·) := by
        apply List.map_injective_iff.mpr toList_injective
        rw [← opts_fields,hf,opts_fields]
      refine (List.perm_insertionSort (· ≤ ·) a.sshOptions).symm.trans ?_
      rw [hs]
      exact List.perm_insertionSort _ _

theorem transportKey_of_same {a b : RemoteConfiguration} (h : a.SameTransport b) :
    a.transportKey = b.transportKey := by
  obtain ⟨hd,hf⟩ := sameTransport_iff.mp h
  rw [transportKey_eq_iff,hd,hf]

/-! Texts that contain no tag of a field. -/

theorem not_forged_ofNat (n : ℕ) : ¬ Tagged.Forged '|' tags (ofNat n) := by
  rintro ⟨t,-,hi⟩
  have hm : '|' ∈ ofNat n := hi.subset List.mem_cons_self
  exact absurd (isDigit_of_mem_ofNat hm) (by decide)

theorem field_of_value {t v : Text} (ht : t ∈ tags) (hv : ¬ Tagged.Forged '|' tags v) :
    Tagged.Field '|' tags (t ++ v) :=
  ⟨⟨t,ht,List.prefix_append t v⟩,fun h =>
    hv (Tagged.forged_of_tagged (separator_notMem_tag t ht) h)⟩

theorem Unforged.fields {c : RemoteConfiguration} (h : c.Unforged) :
    ∀ f ∈ c.fields, Tagged.Field '|' tags f := by
  intro f hf
  rcases List.mem_append.mp hf with hf | hf
  · obtain ⟨p,-,rfl⟩ := List.mem_map.mp hf
    exact field_of_value (by decide) (not_forged_ofNat _)
  · rcases List.mem_append.mp hf with hf | hf
    · obtain ⟨v,hv,rfl⟩ := List.mem_map.mp hf
      exact field_of_value (by decide) (h.2.1 v (Option.mem_toList.mp hv))
    · obtain ⟨v,hv,rfl⟩ := List.mem_map.mp hf
      exact field_of_value (by decide) (h.2.2 v ((List.mem_insertionSort _).mp hv))

/-- Among configurations without such texts the key tells transports apart. -/
theorem transportKey_of_unforged {a b : RemoteConfiguration} (ha : a.Unforged) (hb : b.Unforged)
    (h : a.transportKey = b.transportKey) : a.SameTransport b := by
  obtain ⟨hd,hj⟩ := Tagged.cut_unique separator_notMem_tag ha.1 hb.1
    (Tagged.next_flatMap ha.fields) (Tagged.next_flatMap hb.fields) (transportKey_eq_iff.mp h)
  exact sameTransport_iff.mpr ⟨String.toList_inj.mp hd,
    Tagged.fields_unique separator_notMem_tag ha.fields hb.fields hj⟩

/-! A key that one configuration has alone. -/

theorem transportKey_merged (c : RemoteConfiguration) : c.transportKey =
    ({ c with
      destination := .ofList (c.destination.toList ++ joined c.fields)
      port := none
      identityFile := none
      sshOptions := [] } : RemoteConfiguration).transportKey := by
  rw [transportKey_eq_iff,String.toList_ofList]
  exact (List.append_nil _).symm

theorem mem_joined {fs : List Text} {f : Text} (h : f ∈ fs) : ('|' :: f) <:+: joined fs := by
  obtain ⟨l,r,rfl⟩ := List.append_of_mem h
  exact ⟨joined l,joined r,by simp [joined]⟩

theorem Lone.fields_eq {c : RemoteConfiguration} (h : c.Lone) : c.fields = [] := by
  obtain ⟨hp,hi,ho,-⟩ := h
  simp [fields,hp,hi,ho]

/-- A field of another configuration with the same key stands within the destination. -/
theorem Lone.fields_eq_nil {a b : RemoteConfiguration} (ha : a.Lone)
    (h : a.transportKey = b.transportKey) : b.fields = [] := by
  have hkey := transportKey_eq_iff.mp h
  rw [ha.fields_eq,joined,List.flatMap_nil,List.append_nil] at hkey
  obtain ⟨-,-,-,hid,hopt,hport⟩ := ha
  have hin : ∀ f ∈ b.fields, ('|' :: f) <:+: a.destination.toList := by
    intro f hf
    rw [hkey]
    exact (mem_joined hf).trans (List.suffix_append _ _).isInfix
  have htag : ∀ (t v : Text), t ++ v ∈ b.fields → ('|' :: t) <:+: a.destination.toList := by
    intro t v hm
    have hpre : ('|' :: t) <+: '|' :: (t ++ v) := List.prefix_append ('|' :: t) v
    exact hpre.isInfix.trans (hin _ hm)
  have hi' : b.identityFile = none := by
    rw [Option.eq_none_iff_forall_ne_some]
    intro v hv
    exact hid (htag idTag v.toList (by simp [fields,hv]))
  have ho' : b.sshOptions = [] := by
    rw [List.eq_nil_iff_forall_not_mem]
    intro v hv
    refine hopt (htag optTag v.toList ?_)
    exact List.mem_append_right _ (List.mem_append_right _
      (List.mem_map_of_mem (f := fun v => optTag ++ v.toList) ((List.mem_insertionSort _).mpr hv)))
  cases hp' : b.port with
  | none => simp [fields,hi',ho',hp']
  | some p =>
    refine absurd ?_ (hport p)
    rw [hkey]
    simp [fields,joined,hi',ho',hp']

/-- A destination that ends in another configuration's fields makes the same key. -/
theorem transportKey_read {a b : RemoteConfiguration} (ha : a.fields = [])
    (h : a.destination.toList = b.destination.toList ++ joined b.fields) :
    a.transportKey = b.transportKey := by
  rw [transportKey_eq_iff,ha]
  exact (List.append_nil _).trans h

theorem lone_of_identified {a : RemoteConfiguration}
    (h : ∀ b : RemoteConfiguration, a.transportKey = b.transportKey → a.SameTransport b) :
    a.Lone := by
  obtain ⟨-,hp,hi,ho⟩ := h _ a.transportKey_merged
  have ho : a.sshOptions = [] := List.perm_nil.mp ho
  have hf : a.fields = [] := by simp [fields,hp,hi,ho]
  refine ⟨hp,hi,ho,?_,?_,?_⟩
  · rintro ⟨l,r,he⟩
    have hb := h { a with destination := .ofList l, identityFile := some (.ofList r) }
      (transportKey_read hf (by simp [← he,fields,joined,hp,ho]))
    rw [hb.2.2.1] at hi
    cases hi
  · rintro ⟨l,r,he⟩
    have hb := h { a with destination := .ofList l, sshOptions := [.ofList r] }
      (transportKey_read hf (by simp [← he,fields,joined,hp,hi]))
    have hperm := hb.2.2.2
    rw [ho] at hperm
    exact absurd (List.nil_perm.mp hperm) (List.cons_ne_nil _ _)
  · rintro p ⟨l,he⟩
    have hb := h { a with destination := .ofList l, port := some p }
      (transportKey_read hf (by simp [← he,fields,joined,hi,ho]))
    rw [hb.2.1] at hp
    cases hp

/-- For one configuration against all others: its key is another's only if the transport is the
same exactly if there is nothing but a plain destination. For any two: if nothing in them looks
like a field of the key. -/
theorem transportKey_identifies (a : RemoteConfiguration) :
    ((∀ b : RemoteConfiguration, a.transportKey = b.transportKey ↔ a.SameTransport b) ↔ a.Lone) ∧
    ∀ b : RemoteConfiguration, a.Unforged → b.Unforged →
      (a.transportKey = b.transportKey ↔ a.SameTransport b) := by
  refine ⟨⟨fun h => lone_of_identified (fun b => (h b).mp),
    fun h b => ⟨fun hk => ?_,transportKey_of_same⟩⟩,
    fun b ha hb => ⟨transportKey_of_unforged ha hb,transportKey_of_same⟩⟩
  have hb := h.fields_eq_nil hk
  have hd := transportKey_eq_iff.mp hk
  rw [h.fields_eq,hb] at hd
  exact sameTransport_iff.mpr ⟨String.toList_inj.mp (List.append_cancel_right hd),
    h.fields_eq.trans hb.symm⟩

def host (destination : String) (port : Option UInt16) : RemoteConfiguration :=
  ⟨destination,port,none,[],none,none,none,none,none⟩

/-- A host at a port, among destinations without a bar. -/
theorem transportKey_identifies_gate :
    (host "gate" (some 22)).transportKey = (host "gate" (some 2222)).transportKey ↔
      (host "gate" (some 22)).SameTransport (host "gate" (some 2222)) := by
  refine (transportKey_identifies _).2 _ ⟨?_,by rintro v ⟨⟩,by rintro v ⟨⟩⟩
    ⟨?_,by rintro v ⟨⟩,by rintro v ⟨⟩⟩
  · rintro ⟨t,-,hi⟩
    exact absurd (hi.subset List.mem_cons_self) (by decide)
  · rintro ⟨t,-,hi⟩
    exact absurd (hi.subset List.mem_cons_self) (by decide)

theorem acquire_again (key : String) :
    ((Broker.init.acquire key).acquire key).tasks.length = 1 := by
  have h : (Broker.init.acquire key).entries.lookup key =
      some ⟨1,none,none,none,[0],some 0⟩ := AList.lookup_insert _
  rw [Broker.acquire]
  simp only [h]
  rfl

/-- A destination that names a port the way the key does gets the tunnel of another host. -/
theorem forged_port_shares_tunnel :
    (host "gate" (some 22)).transportKey = (host "gate|port=22" none).transportKey ∧
    ¬ (host "gate" (some 22)).SameTransport (host "gate|port=22" none) ∧
    ((Broker.init.acquire (host "gate" (some 22)).transportKey).acquire
      (host "gate|port=22" none).transportKey).tasks.length = 1 := by
  have hkey : (host "gate" (some 22)).transportKey = (host "gate|port=22" none).transportKey := by
    rw [transportKey_eq_iff]
    decide
  refine ⟨hkey,fun h => absurd h.2.1 (by decide),?_⟩
  rw [← hkey]
  exact acquire_again _

end RemoteConfiguration

end Limux
