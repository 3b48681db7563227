/-! The names a description pass looks for and writes, and what it reports. -/
namespace Caption

/-- The names that a description pass recognises and generates. -/
structure Options where
  /-- The attribute that marks an element. -/
  marker : String := "llm"
  /-- The wrapper: the generated element's name and the imported one. -/
  wrapper : String := "LLMDescribe"
  /-- The module that exports the wrapper. -/
  importSource : String := "@/widgets/llm-describe"
  /-- The attribute of the wrapper that carries the description. -/
  contentProp : String := "content"
deriving DecidableEq, Repr

/-- What one pass did. -/
structure Report where
  /-- Elements that were wrapped. -/
  wrapped : Nat
  /-- Elements whose marker has a value that cannot be a description. -/
  skipped : Nat
  /-- Whether an import of the wrapper was added. -/
  importInjected : Bool
deriving DecidableEq, Repr

end Caption
