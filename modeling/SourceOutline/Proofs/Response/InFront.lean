import SourceOutline.Proofs.Response.RoundTrip

/-!
# Responses with the path of their file

The response for a file is written as the response alone, with the path of the file as its first
member: on one line, the text is that of the response with `"path":`, the path and a comma behind
its brace (`FileResponse.PutsPathInFront`). No response knows a member for the path, so whoever
reads the text as a response passes over it (`FileResponse.IsReadAsResponse`).

**Main result** (`FileResponse.putsPathInFront_and_isReadAsResponse`): both hold for analyses,
whichever of the two shapes they have, and for validations.
-/

namespace SourceOutline

open Json

/-! ### A member in front -/

namespace Json

variable {key : String} {value : Json} {members : List (String × Json)}

theorem compactMembers_cons (hne : members ≠ []) :
    compactMembers ((key, value) :: members) =
      quote key.toList ++ ':' :: (compact value ++ ',' :: compactMembers members) := by
  cases members with
  | nil => exact absurd rfl hne
  | cons member members =>
    rw [compactMembers]
    exact fun h => List.cons_ne_nil _ _ h

/-- The text of an object with one more member in front goes on behind it like the text without. -/
theorem render_compact_cons (key : String) (value : Json) (hne : members ≠ []) :
    ∃ rest, (object members).render .compact = "\x7b" ++ rest ∧
      (cons key value (object members)).render .compact =
        "\x7b" ++ (string key).render .compact ++ ":" ++ value.render .compact ++ "," ++ rest := by
  refine ⟨String.ofList (compactMembers members ++ ['}']), String.toList_inj.mp ?_,
    String.toList_inj.mp ?_⟩
  · simp [render, compact]
  · simp [render, compact, cons, scalarText, compactMembers_cons hne]

end Json

namespace FileResponse

variable {Response : Type}

/-- Whether the response for a file is written on one line as the response alone, with the path
behind the brace. -/
def PutsPathInFront (coding : Coding Response) (file : FileResponse Response) : Prop :=
  ∃ rest, coding.encode .compact file.response = "\x7b" ++ rest ∧
    (file.toJson coding.write).render .compact =
      "\x7b\"path\":" ++ (Json.string file.path).render .compact ++ "," ++ rest

/-- Whether the response is read from all layouts of the response for a file. -/
def IsReadAsResponse (coding : Coding Response) (file : FileResponse Response) : Prop :=
  ∀ layout, coding.decode ((file.toJson coding.write).render layout).toList = .ok file.response

variable {coding : Coding Response} {path : String} {response : Response}
  {members : List (String × Json)}

theorem putsPathInFront_of_write (hwrite : coding.write response = .object members)
    (hne : members ≠ []) : PutsPathInFront coding ⟨path, response⟩ := by
  obtain ⟨rest, hresponse, hfile⟩ := render_compact_cons "path" (.string path) hne
  refine ⟨rest, ?_, ?_⟩
  · rw [Coding.encode, hwrite, hresponse]
  · rw [toJson, hwrite, hfile]
    rfl

/-- The path is passed over by whoever knows no member for it. -/
theorem isReadAsResponse_of_faithful {known : List (String × Presence × Schema)} {levels : Nat}
    (h : coding.Faithful (.record known) (levels + 1) response) (hlevels : levels + 1 < depthLimit)
    (hwrite : coding.write response = .object members) (hlookup : known.lookup "path" = none)
    (hkey : "path" ∉ members.map (·.1)) : IsReadAsResponse coding ⟨path, response⟩ := by
  have hconforms := h.admits.conforms
  have hregular := h.regular
  rw [hwrite] at hconforms hregular
  have hfile : Varies (.record known) (coding.write response)
      (toJson coding.write ⟨path, response⟩) := by
    rw [toJson, hwrite]
    exact hconforms.cons hlookup (.string path)
  have hregular' : Regular (levels + 1) (toJson coding.write ⟨path, response⟩) := by
    rw [toJson, hwrite]
    cases hregular with
    | object hkeys hmembers =>
      exact .object (List.nodup_cons.mpr ⟨hkey, hkeys⟩) (.members_cons (.string path) hmembers)
  intro layout
  exact h.tolerates hlevels _ _ hfile (spellsDocument_render hregular' layout)

/-- **The path stands in front of the response, and is passed over.** -/
theorem putsPathInFront_and_isReadAsResponse :
    (∀ file : FileResponse AnalysisResponse, file.PutsPathInFront AnalysisResponse.coding ∧
      (file.response.Fits → file.IsReadAsResponse AnalysisResponse.coding)) ∧
    ∀ file : FileResponse ValidationResponse, file.PutsPathInFront ValidationResponse.coding ∧
      (file.response.Fits → file.IsReadAsResponse ValidationResponse.coding) := by
  refine ⟨fun ⟨path, response⟩ => ?_, fun ⟨path, response⟩ => ?_⟩
  · cases response with
    | success flag report =>
      exact ⟨putsPathInFront_of_write rfl (List.cons_ne_nil _ _), fun h =>
        isReadAsResponse_of_faithful (AnalysisResponse.faithful h) (by decide) rfl rfl (by simp)⟩
    | failure flag message line column =>
      exact ⟨putsPathInFront_of_write rfl (List.cons_ne_nil _ _), fun h =>
        isReadAsResponse_of_faithful (AnalysisResponse.faithful h) (by decide) rfl rfl (by simp)⟩
  · exact ⟨putsPathInFront_of_write rfl (List.cons_ne_nil _ _), fun h =>
      isReadAsResponse_of_faithful (ValidationResponse.faithful h) (by decide) rfl rfl (by simp)⟩

/-- A path that has to be escaped in front of an error and of a report, and no path at all in front
of a validation. -/
theorem putsPathInFront_and_isReadAsResponse_escaped :
    IsReadAsResponse AnalysisResponse.coding ⟨"a\"\n", .failure false "\\" (some 1) none⟩ ∧
    IsReadAsResponse AnalysisResponse.coding
      ⟨"a\"\n", .success true { imports := [⟨["x"], .unnamed, maxWhole⟩] }⟩ ∧
    IsReadAsResponse ValidationResponse.coding ⟨"", ⟨false, some ⟨"x", none, some 2⟩⟩⟩ := by
  obtain ⟨hanalysis, hvalidation⟩ := putsPathInFront_and_isReadAsResponse
  refine ⟨(hanalysis _).2 ⟨by decide, by decide⟩, (hanalysis _).2 ?_, (hvalidation _).2 ?_⟩
  · intro category
    cases category <;> decide
  · intro error herror
    cases herror
    exact ⟨by decide, by decide⟩

end FileResponse

end SourceOutline
