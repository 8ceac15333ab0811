import Rayforce.Build.Fresh
import Rayforce.Build.Mirror
import Rayforce.Build.Unmixed
import Rayforce.Ipc.Timeout
import Rayforce.Ipc.Told
import Rayforce.Q.Attached
import Rayforce.Q.Loop
import Rayforce.Q.Release
import Rayforce.Q.Wire
import Rayforce.Query.Answers
import Rayforce.Query.Apply
import Rayforce.Query.Dict
import Rayforce.Query.Hygiene
import Rayforce.Query.Normal
import Rayforce.Raw.Boxing
import Rayforce.Raw.Collect
import Rayforce.Raw.Column
import Rayforce.Raw.Nulls
import Rayforce.Raw.Reencode
import Rayforce.Raw.Table
import Rayforce.Raw.Views
import Rayforce.Reference.Binding
import Rayforce.Reference.Books
import Rayforce.Reference.OffThread
import Rayforce.Runtime.Poll
import Rayforce.Serve.Attribution
import Rayforce.Serve.Confinement
import Rayforce.Serve.Ledger
import Rayforce.Serve.Neighbours
import Rayforce.Serve.Sole
import Rayforce.Serve.Transparency
import Rayforce.Value.Objects
import Rayforce.Value.Refusal
