import DocQuery.Path.Error
import DocQuery.Shape

/- Why a query fails. -/

namespace DocQuery

/-- What is wrong with a descriptor, or with a list of them. -/
inductive DescriptorFault where
  | missingOp (descriptor : Json)
  | notAList (operations : Json)
  | shape (error : ShapeError)

inductive QueryError where
  | pathSyntax (path : String) (cause : SyntaxError)
  | unsupportedOperation (op : String)
  | invalidDescriptor (fault : DescriptorFault)

def DescriptorFault.message : DescriptorFault → String
  | missingOp descriptor => s!"missing 'op' in {descriptor.toText}"
  | notAList operations => s!"expected an array of operations, got {operations.toText}"
  | shape error => error.message

def QueryError.message : QueryError → String
  | pathSyntax path cause => s!"Invalid path '{path}': {cause.message}"
  | unsupportedOperation op => s!"Unsupported operation: {op}"
  | invalidDescriptor fault => s!"Invalid operation descriptor: {fault.message}"

end DocQuery
