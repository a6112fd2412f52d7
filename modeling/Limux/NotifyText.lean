import Limux.Notify
import Limux.Lib.GVariant

/-! The parameters of a notification as a GVariant text (`send_dbus_notification` in
`app/src/notify.rs`). -/
namespace Limux.Notify

open GVariant

/-- What the format string has behind the body. -/
def behindBody : Text := ", @as [], @a\x7bsv\x7d \x7b\x7d, 5000)".toList

/-- The text given to `Variant::parse`. -/
def notifyParams (summary body : Text) : Text :=
  "('Limux', uint32 0, 'utilities-terminal', '".toList ++ (escapeQuote summary ++
    ("', '".toList ++ (escapeQuote body ++ ('\'' :: behindBody))))

/-- The parser reads the fields of the format string that are no strings. -/
structure ReadsFields {V : Type} (other : Text → Option (V × Text)) : Prop where
  replacesId : ∃ v, ∀ r, other ("uint32 0".toList ++ ',' :: r) = some (v,',' :: r)
  actions : ∃ v, ∀ r, other ("@as []".toList ++ ',' :: r) = some (v,',' :: r)
  hints : ∃ v, ∀ r, other ("@a\x7bsv\x7d \x7b\x7d".toList ++ ',' :: r) = some (v,',' :: r)
  expireTimeout : ∃ v, other "5000)".toList = some (v,[')'])

/-- The text is a tuple with these two texts in their places. -/
def Carried {V : Type} (other : Text → Option (V × Text)) (summary body : Text) : Prop :=
  ∃ vs, parseTuple other (notifyParams summary body) = some vs ∧
    vs[3]? = some (.string summary) ∧ vs[4]? = some (.string body)

/-- Behind the quote that ends the summary. -/
def behindSummary (body : Text) : Text := ", '".toList ++ (escapeQuote body ++ '\'' :: behindBody)

theorem closes_behindBody : Closes behindBody := by
  intro t rest h
  have hn : literal '\'' .plain behindBody = none := by decide +kernel
  rw [hn] at h
  cases h

theorem closes_behindSummary (body : Text) : Closes (behindSummary body) := by
  intro t rest h
  cases h
  exact ⟨' ',rfl,by decide⟩

section Fields

variable {V : Type} {other : Text → Option (V × Text)}

theorem value_literal (s : Text) : value other (' ' :: '\'' :: s) =
    (literal '\'' .plain s).map (fun p => (.string p.1,p.2)) := rfl

theorem tuple_notifyParams (h : ReadsFields other) (summary body : Text) : ∃ n v,
    tuple other (notifyParams summary body) =
      (elements other (n+5)
        (' ' :: '\'' :: (escapeQuote summary ++ '\'' :: behindSummary body))).map
        (fun p => (.string "Limux".toList :: .other v :: .string "utilities-terminal".toList :: p.1,
          p.2)) := by
  obtain ⟨v,hv⟩ := h.replacesId
  let t : Text := ' ' :: '\'' :: (escapeQuote summary ++ '\'' :: behindSummary body)
  let u : Text := " 'utilities-terminal',".toList ++ t
  have h₁ : value other ("'Limux', uint32 0,".toList ++ u) =
      some (.string "Limux".toList,", uint32 0,".toList ++ u) := rfl
  have h₂ : value other ("uint32 0,".toList ++ u) = some (.other v,',' :: u) :=
    congrArg (Option.map (fun p : V × Text => (Value.other p.1,p.2))) (hv u)
  have h₃ : value other u = some (.string "utilities-terminal".toList,',' :: t) := rfl
  have hfirst : tuple other (notifyParams summary body) =
      (elements other (t.length+29+1+1) ("uint32 0,".toList ++ u)).map
        (fun p => (.string "Limux".toList :: p.1,p.2)) :=
    tuple_first (r := "int32 0,".toList ++ u) (by decide) (by decide) h₁
  refine ⟨t.length+24,v,?_⟩
  rw [hfirst,elements_comma h₂,elements_comma h₃,Option.map_map,Option.map_map]
  rfl

theorem elements_literal {n : ℕ} {s tail r : Text} {vs : List (Value V)} (htail : Closes tail)
    (he : elements other n (' ' :: '\'' :: (escapeQuote s ++ '\'' :: tail)) = some (vs,r))
    (hs : vs.head? = some (.string s)) : ∀ c ∈ s, Literal c := by
  obtain ⟨v,r',hv,hhead⟩ := elements_first he
  rw [value_literal] at hv
  obtain ⟨⟨t,rest⟩,hl,hvt⟩ := Option.map_eq_some_iff.mp hv
  cases hvt
  rw [hs] at hhead
  cases hhead
  exact (literal_escapeQuote_iff htail t).mp ⟨rest,hl⟩

/-- A text that its literal carries, and the comma behind it. -/
theorem elements_summary {n : ℕ} {summary : Text} (hs : ∀ c ∈ summary, Literal c) (body : Text) :
    elements other (n+1) (' ' :: '\'' :: (escapeQuote summary ++ '\'' :: behindSummary body)) =
      (elements other n (' ' :: '\'' :: (escapeQuote body ++ '\'' :: behindBody))).map
        (fun p => (.string summary :: p.1,p.2)) := by
  refine elements_comma ?_
  rw [value_literal,literal_escapeQuote hs]
  rfl

theorem elements_body (h : ReadsFields other) (n : ℕ) {body : Text}
    (hb : ∀ c ∈ body, Literal c) : ∃ vs,
      elements other (n+4) (' ' :: '\'' :: (escapeQuote body ++ '\'' :: behindBody)) =
        some (.string body :: vs,[]) := by
  obtain ⟨a,ha⟩ := h.actions
  obtain ⟨d,hd⟩ := h.hints
  obtain ⟨t,ht⟩ := h.expireTimeout
  have h₁ : value other (' ' :: '\'' :: (escapeQuote body ++ '\'' :: behindBody)) =
      some (.string body,',' :: behindBody.tail) := by
    rw [value_literal,literal_escapeQuote hb]
    rfl
  have h₂ : value other behindBody.tail =
      some (.other a,',' :: " @a\x7bsv\x7d \x7b\x7d, 5000)".toList) :=
    congrArg (Option.map (fun p : V × Text => (Value.other p.1,p.2))) (ha _)
  have h₃ : value other " @a\x7bsv\x7d \x7b\x7d, 5000)".toList =
      some (.other d,',' :: " 5000)".toList) :=
    congrArg (Option.map (fun p : V × Text => (Value.other p.1,p.2))) (hd _)
  have h₄ : value other " 5000)".toList = some (.other t,[')']) :=
    congrArg (Option.map (fun p : V × Text => (Value.other p.1,p.2))) ht
  refine ⟨[.other a,.other d,.other t],?_⟩
  rw [elements_comma h₁,elements_comma h₂,elements_comma h₃,elements_close h₄]
  rfl

/-- The notification carries its texts exactly if both are free of backslashes and NULs. -/
theorem carried_iff (h : ReadsFields other) (summary body : Text) :
    Carried other summary body ↔ (∀ c ∈ summary, Literal c) ∧ ∀ c ∈ body, Literal c := by
  obtain ⟨n,v,ht⟩ := tuple_notifyParams h summary body
  constructor
  · rintro ⟨vs,hp,h₃,h₄⟩
    rw [parseTuple,ht] at hp
    cases he : elements other (n+5)
        (' ' :: '\'' :: (escapeQuote summary ++ '\'' :: behindSummary body)) with
    | none =>
      rw [he] at hp
      cases hp
    | some p =>
      rw [he] at hp
      obtain ⟨-,hvs⟩ := Option.ite_none_right_eq_some.mp hp
      cases hvs
      have hs := elements_literal (closes_behindSummary body) he
        (by rw [List.head?_eq_getElem?]; exact h₃)
      rw [elements_summary hs] at he
      obtain ⟨q,hq,hpq⟩ := Option.map_eq_some_iff.mp he
      cases hpq
      exact ⟨hs,elements_literal closes_behindBody hq
        (by rw [List.head?_eq_getElem?]; exact h₄)⟩
  · rintro ⟨hs,hb⟩
    obtain ⟨vs,hbody⟩ := elements_body h n hb
    refine ⟨.string "Limux".toList :: .other v :: .string "utilities-terminal".toList ::
      .string summary :: .string body :: vs,?_,rfl,rfl⟩
    rw [parseTuple,ht,elements_summary hs,hbody]
    rfl

/-- The text of a bell's notification. -/
theorem bell_carried_iff (h : ReadsFields other) (title : String) :
    Carried other (bellSummary title).toList (bellBody title).toList ↔
      ∀ c ∈ title.toList, Literal c := by
  have hsummary : (bellSummary title).toList = "Bell in ".toList ++ title.toList :=
    String.toList_append
  have hbody : (bellBody title).toList =
      "Terminal bell in workspace \"".toList ++ title.toList ++ "\"".toList :=
    String.toList_append.trans (congrArg (· ++ "\"".toList) String.toList_append)
  rw [carried_iff h,hsummary,hbody]
  constructor
  · exact fun hc c hm => hc.1 c (List.mem_append_right _ hm)
  · intro hc
    refine ⟨fun c hm => ?_,fun c hm => ?_⟩
    · rcases List.mem_append.mp hm with hm | hm
      · exact Text.forall_of_all (s := "Bell in ".toList) (by decide) c hm
      · exact hc c hm
    · rcases List.mem_append.mp hm with hm | hm
      · rcases List.mem_append.mp hm with hm | hm
        · exact Text.forall_of_all (s := "Terminal bell in workspace \"".toList) (by decide) c hm
        · exact hc c hm
      · exact Text.forall_of_all (s := "\"".toList) (by decide) c hm

end Fields

/-! The parser on the fields of the format string. -/

def fieldTexts : List Text :=
  ["uint32 0".toList,"@as []".toList,"@a\x7bsv\x7d \x7b\x7d".toList,"5000".toList]

def fixedFields (s : Text) : Option (ℕ × Text) :=
  (fieldTexts.findIdx? (fun f => f.isPrefixOf s)).map
    (fun i => (i,s.drop (fieldTexts.getD i []).length))

theorem readsFields_fixedFields : ReadsFields fixedFields where
  replacesId := ⟨0,fun _ => rfl⟩
  actions := ⟨1,fun _ => rfl⟩
  hints := ⟨2,fun _ => rfl⟩
  expireTimeout := ⟨3,rfl⟩

theorem bell_carried_quotes : Carried fixedFields (bellSummary "it's \"up\"").toList
    (bellBody "it's \"up\"").toList :=
  (bell_carried_iff readsFields_fixedFields "it's \"up\"").mpr
    (Text.forall_of_all (by decide))

/-- A title that ends with a backslash takes the quote with it, and there is no tuple. -/
theorem backslash_not_carried : parseTuple fixedFields
      (notifyParams (bellSummary "dir\\").toList (bellBody "dir\\").toList) = none ∧
    ¬Carried fixedFields (bellSummary "dir\\").toList (bellBody "dir\\").toList := by
  have hn : parseTuple fixedFields
      (notifyParams (bellSummary "dir\\").toList (bellBody "dir\\").toList) = none := by
    decide +kernel
  refine ⟨hn,?_⟩
  rintro ⟨vs,hp,-⟩
  rw [hn] at hp
  cases hp

end Limux.Notify
