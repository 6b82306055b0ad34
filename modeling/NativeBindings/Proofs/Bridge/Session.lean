import NativeBindings.Proofs.Bridge.Linkage

namespace NativeBindings

/-! # Sessions

Several indexes may be turned into bindings in one run.  Whatever they declare, and
whatever the package is called, the native code for all of them binds no symbol and
names no wrapper twice.
-/

/-- The symbols and wrappers that came about between two states of a run. -/
structure Run.Bound (run after : Run) (bindings : List Binding) : Prop where
  wrapped : run.Wrapped after (bindings.filterMap Binding.wrapperName?)
  distinct : (bindings.map (·.symbol)).Nodup
  asked : ∀ symbol ∈ bindings.map (·.symbol), ∃ package request,
    symbol = Request.symbol package request ∧ run.nextStub ≤ request.id.number ∧
      request.id.number < after.nextStub

namespace Run.Bound

variable {run mid after : Run} {bindings more : List Binding}

theorem nil : run.Bound run [] := ⟨.nil le_rfl, List.nodup_nil, nofun⟩

theorem append (first : run.Bound mid bindings) (second : mid.Bound after more) :
    run.Bound after (bindings ++ more) where
  wrapped := by
    rw [List.filterMap_append]
    exact first.wrapped.append second.wrapped
  distinct := by
    rw [List.map_append]
    refine List.nodup_append.mpr ⟨first.distinct, second.distinct, ?_⟩
    rintro symbol early _ late rfl
    obtain ⟨package, request, asked, -, below⟩ := first.asked symbol early
    obtain ⟨other, later, again, above, -⟩ := second.asked symbol late
    have same := congrArg StubId.number (Request.id_of_symbol (asked.symm.trans again))
    omega
  asked symbol member := by
    rw [List.map_append] at member
    rcases List.mem_append.mp member with early | late
    · obtain ⟨package, request, asked, above, below⟩ := first.asked symbol early
      exact ⟨package, request, asked, above, Nat.lt_of_lt_of_le below second.wrapped.le.stubs⟩
    · obtain ⟨package, request, asked, above, below⟩ := second.asked symbol late
      exact ⟨package, request, asked, Nat.le_trans first.wrapped.le.stubs above, below⟩

/-- No wrapper is named like a symbol. -/
theorem nodup_names (bound : run.Bound after bindings) :
    (bindings.map (·.symbol) ++ bindings.filterMap Binding.wrapperName?).Nodup := by
  refine List.nodup_append.mpr ⟨bound.distinct, bound.wrapped.distinct, ?_⟩
  rintro symbol isSymbol _ isName rfl
  obtain ⟨package, request, asked, -⟩ := bound.asked symbol isSymbol
  obtain ⟨number, base, -, -, made⟩ := bound.wrapped.made symbol isName
  cases request <;> exact wrapperName_ne_stubSymbol (made.symm.trans asked)

theorem isIdentifier (bound : run.Bound after bindings)
    (plain : ∀ c ∈ run.wrapperNames.package.toList, isSymbolChar c) :
    ∀ name ∈ bindings.map (·.symbol) ++ bindings.filterMap Binding.wrapperName?,
      IsIdentifier name := by
  intro name member
  rcases List.mem_append.mp member with isSymbol | isName
  · obtain ⟨package, request, rfl, -⟩ := bound.asked name isSymbol
    exact request.isIdentifier_symbol package
  · obtain ⟨number, base, -, -, rfl⟩ := bound.wrapped.made name isName
    exact isIdentifier_wrapperName number base plain

end Run.Bound

namespace Index

private theorem run_mapError {ε δ α : Type} (attempt : ExceptT ε (StateM Run) α) (place : ε → δ)
    {run after : Run} {value : α} (ends : attempt.run run = (.ok value, after)) :
    (ExceptT.mk do pure ((← attempt.run).mapError place) : ExceptT δ (StateM Run) α).run run =
      (.ok value, after) := by
  change ((attempt.run run).1.mapError place, (attempt.run run).2) = _
  rw [ends]
  rfl

namespace Links

variable {index : Index} {run built after : Run} {outcomes : List Outcome}
  {bindings : List Binding} (links : index.Links run outcomes built bindings after)

include links

theorem bound : run.Bound after bindings where
  wrapped := by
    have none := (Run.Wrapped.nil links.builds.le).append links.wrapped
    rwa [List.nil_append] at none
  distinct := by
    rw [map_symbol_of_fulfilled links.fulfilled]
    exact links.builds.nodup_symbols built.package
  asked symbol member := by
    rw [map_symbol_of_fulfilled links.fulfilled] at member
    obtain ⟨request, listed, rfl⟩ := List.mem_map.mp member
    have numbered := links.builds.numbered.before_le links.wrapped.le
    have own := links.builds.request_id listed
    exact ⟨_, request, rfl, numbered.lower _ own, numbered.upper _ own⟩

theorem linked_run : index.linked.run run =
    (.ok (Library.ofOutcomes outcomes, ⟨bindings, [{
      stubs := (Library.ofOutcomes outcomes).stubs
      symbols := (Library.ofOutcomes outcomes).symbols built.package }]⟩), after) := by
  unfold linked
  have first := run_mapError index.build GenerateError.stubs links.builds.build_run
  have second := run_mapError (index.bridge _ _) GenerateError.bridge links.bridged
  rw [run_bind_ok first, run_bind_ok second]
  rfl

end Links

private theorem linked_mapM (indexes : List Index) (run : Run) :
    ∃ results after, (ExceptT.run (indexes.mapM linked)).run run = (.ok results, after) ∧
      run.Bound after (results.flatMap (·.2.bindings)) := by
  induction indexes generalizing run with
  | nil => exact ⟨[], run, rfl, .nil⟩
  | cons index rest ih =>
      obtain ⟨outcomes, built, bindings, mid, links⟩ := index.exists_links run
      obtain ⟨result, same, first⟩ : ∃ result : Library × Bridge, result.2.bindings = bindings ∧
          index.linked.run run = (.ok result, mid) := ⟨_, rfl, links.linked_run⟩
      obtain ⟨results, after, ends, others⟩ := ih mid
      refine ⟨result :: results, after, ?_, ?_⟩
      · rw [List.mapM_cons]
        exact (run_bind_ok first).trans (run_bind_ok ends)
      · rw [List.flatMap_cons, same]
        exact links.bound.append others

/-- Whatever is linked in one run, one index after the other: every symbol and every
name of a wrapper is an identifier of C, and no two of them are alike. -/
theorem linked_names (config : Config) (indexes : List Index) :
    ∃ results after,
      (ExceptT.run (indexes.mapM linked)).run (.start config) = (.ok results, after) ∧
      let bindings := results.flatMap (·.2.bindings)
      (∀ name ∈ bindings.map (·.symbol) ++ bindings.filterMap Binding.wrapperName?,
        IsIdentifier name) ∧
      (bindings.map (·.symbol) ++ bindings.filterMap Binding.wrapperName?).Nodup := by
  obtain ⟨results, after, ends, bound⟩ := linked_mapM indexes (.start config)
  refine ⟨results, after, ends, bound.isIdentifier fun c member => ?_, bound.nodup_names⟩
  exact isSymbolChar_of_mem_symbolName member

end Index

end NativeBindings
