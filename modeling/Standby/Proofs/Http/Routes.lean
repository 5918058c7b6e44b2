import Standby.Http.Router
import Standby.Proofs.Text.Roundtrip
/-!
# Paths without their format suffix

A path that leads to a collection ends with the collection's name. What is left of it without its suffix therefore has
no other suffix, and leads where the path has led.
-/

namespace Standby

/-! ## The last character of a path -/

namespace Text

theorem exists_splitAt_concat {sep c : Char} (h : c ≠ sep) (cs : List Char) :
    ∃ init last, splitAt sep (cs ++ [c]) = init ++ [last ++ [c]] := by
  induction cs with
  | nil => exact ⟨[], [], by simp [splitAt, h]⟩
  | cons b cs ih =>
    obtain ⟨init, last, hsplit⟩ := ih
    by_cases hb : b = sep
    · exact ⟨[] :: init, last, by simp [splitAt, hb, hsplit]⟩
    · cases init with
      | nil => exact ⟨[], b :: last, by simp_all [splitAt]⟩
      | cons p init => exact ⟨(b :: p) :: init, last, by simp [splitAt, hb, hsplit]⟩

namespace Percent

/-- A character that is neither a percent sign nor a digit is no part of what percent signs have begun. -/
theorem decode_concat {c : Char} (hc : c ≠ '%') (hdigit : hexValue? c = none) (cs : List Char) :
    decode (cs ++ [c]) = decode cs ++ String.utf8EncodeChar c := by
  have hone : decode [c] = String.utf8EncodeChar c := by
    rw [decode_cons_of_ne hc, decode, List.append_nil]
  induction cs using decode.induct with
  | case1 => rw [List.nil_append, hone, decode, List.nil_append]
  | case2 h l rest a b hl hh ih => simp [decode, hh, hl, ih]
  | case3 h l rest hnone ih =>
    have hcons : ∀ rest', decode ('%' :: h :: l :: rest') = String.utf8EncodeChar '%' ++ decode (h :: l :: rest') := by
      intro rest'
      rw [decode, if_pos rfl]
      split
      · rename_i a b ha hb
        exact absurd hb (hnone a b ha)
      · rfl
    rw [List.cons_append, List.cons_append, List.cons_append, hcons, hcons, List.append_assoc]
    exact congrArg _ ih
  | case4 rest hshort ih =>
    cases rest with
    | nil => simp [decode, hone]
    | cons h rest =>
      cases rest with
      | nil =>
        have : decode ['%', h, c] = String.utf8EncodeChar '%' ++ decode [h, c] := by
          rw [decode.eq_def]
          simp [hdigit]
        have : decode ['%', h] = String.utf8EncodeChar '%' ++ decode [h] := by
          rw [decode.eq_def]
          simp
        simp_all
      | cons l rest => exact absurd rfl (hshort h l rest)
  | case5 b cs hb ih => rw [List.cons_append, decode_cons_of_ne hb, ih, decode_cons_of_ne hb, List.append_assoc]

theorem getLast?_decodeText {c : Char} (hc : c ≠ '%') (hdigit : hexValue? c = none) (hascii : c.toNat < 0x80)
    (cs : List Char) : (decodeText (String.ofList (cs ++ [c]))).toList.getLast? = some c := by
  have hbytes : String.utf8EncodeChar c = [UInt8.ofNat c.toNat] := if_pos (Nat.le_of_lt_succ hascii)
  have hbyte : (UInt8.ofNat c.toNat).toNat = c.toNat := Utf8.toNat_ofNat (by omega)
  rw [decodeText, Utf8.decodeLossy, String.toList_ofList, String.toList_ofList, decode_concat hc hdigit, hbytes,
    Utf8.chars_concat _ (by rw [hbyte]; exact hascii), hbyte, Char.ofNat_toNat, List.map_append]
  exact List.getLast?_concat

end Percent

end Text

namespace Router

/-- The last component of a path ends as the path does. -/
theorem getLast?_components {path : String} {c : Char} (hpath : path.toList.getLast? = some c) (hsep : c ≠ '/')
    (hc : c ≠ '%') (hdigit : Text.hexValue? c = none) (hascii : c.toNat < 0x80) :
    ∃ last, (components path).getLast? = some last ∧ last.toList.getLast? = some c := by
  obtain ⟨cs, hcs⟩ := List.getLast?_eq_some_iff.1 hpath
  obtain ⟨init, last, hsplit⟩ := Text.exists_splitAt_concat hsep cs
  refine ⟨Text.Percent.decodeText (String.ofList (last ++ [c])), ?_, Text.Percent.getLast?_decodeText hc hdigit hascii last⟩
  have hne : String.ofList (last ++ [c]) ≠ "" := by
    intro h
    have := congrArg String.toList h
    simp at this
  rw [components, Text.pieces, hcs, hsplit, List.map_append, List.filter_append, List.map_append, List.map_singleton,
    List.filter_cons_of_pos (by exact decide_eq_true hne)]
  exact List.getLast?_concat

/-! ## Collections -/

theorem within?_eq_collection {collection resource : String} {params params' : List (String × String)}
    {rest : List String} (h : within? collection params rest = some (resource, .collection, params')) :
    rest = [] ∧ resource = collection := by
  unfold within? at h
  split at h
  · cases h
    exact ⟨rfl, rfl⟩
  · cases h
  · split at h <;> cases h
  · cases h

theorem getLast?_of_place? {r : Router} {comps : List String} {resource : String} {params : List (String × String)}
    (h : r.place? comps = some (resource, .collection, params)) : comps.getLast? = some resource := by
  unfold place? at h
  split at h
  · cases h
  · split at h
    · split at h
      · rename_i hplace
        cases h
        obtain ⟨rfl, rfl⟩ := within?_eq_collection hplace
        rfl
      · split at h
        · split at h
          · rename_i n hn
            obtain ⟨rfl, rfl⟩ := within?_eq_collection h
            have hname := List.find?_some hn
            simp only [Bool.and_eq_true, beq_iff_eq] at hname
            rw [hname.2]
            rfl
          · cases h
        · cases h
    · cases h

theorem splitProject_suffix (r : Router) (comps : List String) : (r.splitProject comps).2 <:+ comps := by
  unfold splitProject
  split
  · split
    · exact List.suffix_cons _ _
    · exact List.suffix_rfl
  · exact List.suffix_rfl

/-- A path to a collection that is not the root ends with its name. -/
theorem getLast?_of_locate? {r : Router} {comps : List String} {project : Option String} {resource : String}
    {params : List (String × String)} (h : r.locate? comps = some (project, resource, .collection, params))
    (hne : comps ≠ []) : comps.getLast? = some resource := by
  unfold locate? at h
  split at h
  · exact absurd rfl hne
  · split at h
    · cases hroot : r.root with
      | none => rw [hroot] at h; cases h
      | some root => rw [hroot] at h; cases h
    · cases h
  · split at h
    · rename_i start rest hrest _
      obtain ⟨front, hfront⟩ := r.splitProject_suffix rest
      cases hsplit : r.splitProject rest with
      | mk project' rest' =>
        rw [hsplit] at h hfront
        obtain ⟨place, hplace, hp⟩ := Option.map_eq_some_iff.1 h
        cases hp
        rw [← hfront, ← List.cons_append, List.getLast?_append, getLast?_of_place? hplace]
        rfl
    · cases h

theorem before?_eq_some {finish s : String} {t : String} (h : Text.before? finish s = some t) :
    s.toList = t.toList ++ finish.toList := by
  unfold Text.before? at h
  split at h
  · rename_i hsuffix
    cases h
    obtain ⟨front, hfront⟩ := List.isSuffixOf_iff_suffix.1 hsuffix
    have hlength : s.length - finish.length = front.length := by
      rw [← String.length_toList, ← String.length_toList, ← hfront, List.length_append, Nat.add_sub_cancel]
    rw [String.toList_ofList, hlength, ← hfront, List.take_left']
    rfl
  · cases h

/-- The path of a route to a collection leads there without the suffix, if no suffix can be the end of its name. -/
theorem route?_path {r : Router} {raw : String} {route : Route} (h : r.route? raw = some route)
    (htarget : route.target = .collection) (hname : route.resource.toList.getLast? ≠ some 'n') :
    r.route? route.path = some { route with suffix := none } := by
  unfold route? at h
  cases hraw : Text.before? ".json" raw with
  | none =>
    simp only [hraw] at h
    obtain ⟨place, hplace, rfl⟩ := Option.map_eq_some_iff.1 h
    simp only [route?, hraw, hplace, Option.map_some]
  | some path =>
    simp only [hraw] at h
    obtain ⟨⟨project, resource, target, params⟩, hplace, rfl⟩ := Option.map_eq_some_iff.1 h
    cases htarget
    -- If the path had a second suffix, the name of the collection would end with it.
    have hpath : Text.before? ".json" path = none := by
      cases hpath : Text.before? ".json" path with
      | none => rfl
      | some front =>
        have hend : path.toList.getLast? = some 'n' := by
          rw [before?_eq_some hpath, List.getLast?_append]
          rfl
        obtain ⟨last, hlast, hn⟩ := getLast?_components hend (by decide) (by decide) (by decide) (by decide)
        have hne : components path ≠ [] := fun hnil => by simp [hnil] at hlast
        rw [getLast?_of_locate? hplace hne] at hlast
        cases hlast
        exact absurd hn hname
    simp only [route?, hpath, hplace, Option.map_some]

/-- A path of one component leads to no collection. -/
theorem target_of_route?_star {r : Router} {route : Route} (h : r.route? "*" = some route) :
    route.target ≠ .collection := by
  have hcomponents : components "*" = [Text.Percent.decodeText "*"] := rfl
  have hsuffix : Text.before? ".json" "*" = none := by decide
  simp only [route?, hsuffix, hcomponents, locate?] at h
  split at h
  · simp only [Option.map_map, Option.map_eq_some_iff] at h
    obtain ⟨root, -, rfl⟩ := h
    exact RouteTarget.noConfusion
  · cases h

theorem root_of_route?_empty {r : Router} {route : Route} (h : r.route? "" = some route) :
    r.root = some route.resource := by
  have hcomponents : components "" = [] := by decide
  have hsuffix : Text.before? ".json" "" = none := by decide
  simp only [route?, hsuffix, hcomponents, locate?, Option.map_map, Option.map_eq_some_iff] at h
  obtain ⟨root, hroot, rfl⟩ := h
  exact hroot

end Router

end Standby
