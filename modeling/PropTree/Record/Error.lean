import PropTree.Descriptor

set_option autoImplicit false

namespace PropTree

inductive Accessor where
  | getter
  | setter
deriving DecidableEq, Repr

def Accessor.text : Accessor → String
  | .getter => "getter"
  | .setter => "setter"

structure InvokeError where
  message : String
deriving DecidableEq, Repr

inductive SchemaError where
  | noSuchProperty (typeName property : String) (accessor : Accessor)
  | unknownType (typeName : String)
  | duplicateType (typeName : String)
  | instantiation (target : Descriptor) (reason : String)
deriving DecidableEq, Repr

def SchemaError.message : SchemaError → String
  | .noSuchProperty typeName property accessor =>
    "there is no " ++ accessor.text ++ " for property named '" ++ property ++ "' in '" ++
      typeName ++ "'"
  | .unknownType typeName => "no type metadata registered for '" ++ typeName ++ "'"
  | .duplicateType typeName => "type metadata for '" ++ typeName ++ "' is already registered"
  | .instantiation target reason =>
    "cannot create an instance of " ++ target.text ++ ": " ++ reason

end PropTree
